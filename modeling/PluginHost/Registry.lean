/-
  PluginHost.Registry

  The hosts with their containers and the settings for reaching their plugins.
  Of hosts with the same name the first one is found by its name, while the
  container of the last one is kept.
-/
import PluginHost.Container

namespace PluginHost

/-- A host. -/
structure Host where
  name : String
  config : Option Config
  check : DigestCheck := .md5
  /-- The pool that its processes run in. -/
  pool : Nat
  /-- The settings for reaching each plugin. -/
  connections : NameMap Connection := .empty

namespace Host

/-- The settings for reaching a plugin. -/
def connection (h : Host) (plugin : String) : Except Error Connection :=
  match h.connections.get? plugin with
  | some c => .ok c
  | none => .error (.connectionUnset plugin)

/-- The container of a host before its installation. -/
def container (h : Host) (policy : Retry.Policy) : Container where
  installer := ⟨h.name, h.config, h.check⟩
  pool := h.pool
  policy

end Host

/-- Hosts and their containers. -/
structure Registry where
  hosts : List Host := []
  containers : NameMap Container := .empty

namespace Registry

/-- The registry of hosts, with one policy for all calls. -/
def ofHosts (hosts : List Host) (policy : Retry.Policy) : Registry where
  hosts
  containers := .ofList (hosts.map fun h => (h.name, h.container policy))

/-- The host of a name. -/
def host (r : Registry) (name : String) : Except Error Host :=
  match r.hosts.find? fun h => h.name = name with
  | some h => .ok h
  | none => .error (.hostUnknown name)

/-- The container that is kept under the name of a host. -/
def kept (r : Registry) (name : String) : Except Error Container :=
  match r.containers.get? name with
  | some c => .ok c
  | none => .error (.hostUnknown name)

/-- The container of a host. -/
def container (r : Registry) (name : String) : Except Error Container := do
  let _ ← r.host name
  r.kept name

/-- The registry with the container of a host changed. -/
def setContainer (r : Registry) (name : String) (c : Container) : Registry :=
  { r with containers := r.containers.insert name c }

/-- Sets up the container of a host, if there is one. -/
def setup (r : Registry) (storage : Storage) (name : String) : Except Error Unit × Registry :=
  match r.kept name with
  | .error e => (.error e, r)
  | .ok c =>
    let done := c.setup storage
    (done.result, r.setContainer name done.container)

/-- Sets up hosts, one after another, and gathers the failures. -/
def setupEach (r : Registry) (storage : Storage) :
    List String → List (String × Error) × Registry
  | [] => ([], r)
  | name :: names =>
    let (result, r) := r.setup storage name
    let (failures, r) := r.setupEach storage names
    match result with
    | .ok () => (failures, r)
    | .error e => ((name, e) :: failures, r)

/-- Sets up all hosts.  Every one is tried, and all failures are reported. -/
def install (r : Registry) (storage : Storage) : Except Error Registry :=
  match r.setupEach storage (r.hosts.map (·.name)) with
  | ([], r) => .ok r
  | (failures, _) => .error (.setupFailed failures)

/-- The installed plugins of every host. -/
def allPlugins (r : Registry) : Except Error (List (String × PluginSet)) :=
  r.hosts.mapM fun h => do return (h.name, (← r.kept h.name).plugins)

/-- The port that a plugin is to be started at. -/
def port (r : Registry) (host plugin : String) : Except Error UInt16 := do
  let connection ← (← r.host host).connection plugin
  let info ← (← r.container host).info plugin
  let protocol ← Protocol.parse info.protocol
  match connection.port protocol with
  | some port => return port
  | none => throw (.connectionUnset plugin)

/-! ## Processes -/

/-- The number of the process of a plugin. -/
def pid (r : Registry) (s : System) (host plugin : String) : Except Error Nat := do
  s.pid (← r.host host).pool plugin

/-- Kills the processes of hosts, one host after another. -/
def killHosts (s : System) : List Host → List Error × System
  | [] => ([], s)
  | h :: hs =>
    let (errors, s) := s.killAll h.pool
    let (more, s) := killHosts s hs
    (errors ++ more, s)

/-- Kills all processes of all hosts. -/
def killPlugins (r : Registry) (s : System) : List Error × System :=
  killHosts s r.hosts

/-- What the connector is called that the settings of a plugin bring along. -/
def peerName (host plugin : String) : String :=
  host ++ "/" ++ plugin

/-! ## Handles -/

/-- Where a plugin is found and how it is started. -/
structure Route where
  connection : Connection
  container : Container
  port : UInt16

/-- What is needed to start a plugin and to reach it. -/
def route (r : Registry) (host plugin : String) : Except Error Route := do
  let connection ← (← r.host host).connection plugin
  let container ← r.container host
  let port ← r.port host plugin
  return ⟨connection, container, port⟩

/-- A request for a handle after its first part. -/
inductive HandleStep where
  /-- The plugin runs. -/
  | ready (route : Route)
  /-- The plugin is being started. -/
  | starting (route : Route) (launch : Launch)

/-- Begins to make a handle: a plugin that does not run is started. -/
def beginHandle (r : Registry) (s : System) (host plugin : String) :
    Except Error HandleStep × System :=
  match r.route host plugin with
  | .error e => (.error e, s)
  | .ok route =>
    if s.isReady route.container.pool plugin then (.ok (.ready route), s)
    else
      match route.container.beginRun s plugin route.port with
      | (.ok launch, s) => (.ok (.starting route launch), s)
      | (.error (.alreadyStarted _), s) => (.ok (.ready route), s)
      | (.error e, s) => (.error e, s)

/-- The handle on a plugin that runs. -/
def handle (host plugin : String) (route : Route) : Except Error Handle :=
  if route.connection.isEmpty then .error (.connectionUnset plugin)
  else route.container.handle plugin route.port route.connection.line (peerName host plugin)

/-- Ends the making of a handle.  It does not matter if somebody else has started
    the plugin meanwhile. -/
def finishHandle (s : System) (host plugin : String) : HandleStep → Except Error Handle × System
  | .ready route => (handle host plugin route, s)
  | .starting route launch =>
    match Container.finishRun s launch with
    | (.ok (), s) | (.error (.alreadyStarted _), s) => (handle host plugin route, s)
    | (.error e, s) => (.error e, s)

/-! ## Restarting -/

/-- The first part of the answer to a signal: the process is replaced if it is
    still the one that was found dead.  Nothing is started if it is not, if the
    port is not known, or if the process cannot be killed. -/
def beginRestart (r : Registry) (s : System) (signal : Signal) : Option Launch × System :=
  match r.pid s signal.host signal.plugin with
  | .error _ => (none, s)
  | .ok pid =>
    if pid ≠ signal.pid then (none, s)
    else
      match r.container signal.host, r.port signal.host signal.plugin with
      | .ok container, .ok port =>
        match s.kill container.pool signal.plugin with
        | (.error _, s) => (none, s)
        | (.ok (), s) =>
          match container.beginRun s signal.plugin port with
          | (.ok launch, s) => (some launch, s)
          | (.error _, s) => (none, s)
      | _, _ => (none, s)

/-- The second part of the answer to a signal. -/
def finishRestart (s : System) (l : Launch) : System :=
  (Container.finishRun s l).2

end Registry

end PluginHost
