/-
  PluginHost.CommandLine.Serve

  Serving hosts: their plugins are installed, started and called once; a
  supervisor looks after them until the program is asked to stop; then all of
  them are told to stop.
-/
import PluginHost.CommandLine.Arguments
import PluginHost.CommandLine.Check

namespace PluginHost

namespace CommandLine

/-! ## Hosts -/

/-- The settings for reaching a plugin, if it has a port and speaks a protocol
    that needs no more than that. -/
def connection? (address : String) (p : Config.PluginEntry) : Option Connection :=
  match p.port, Protocol.parse p.protocol with
  | some port, .ok .rest => some { rest := some { address, port } }
  | _, _ => none

/-- The plugins that a host lists and that are defined, as it lists them. -/
def listedPlugins (config : Config) (host : String) : List (String × Config.PluginEntry) :=
  let listed := ((config.hosts.get? host).map (·.plugins)).getD []
  listed.filterMap fun name => (config.plugins.get? name).map (name, ·)

/-- A host with the settings for its plugins. -/
def makeHost (config : Config) (address name : String) (pool : Nat) : Host where
  name
  config := some config
  pool
  connections := .ofList ((listedPlugins config name).filterMap fun (plugin, p) =>
    (connection? address p).map (plugin, ·))

/-- Hosts, each with a pool of its own. -/
def makeHosts (config : Config) (address : String) (names : List String) : List Host :=
  names.zipIdx.map fun (name, pool) => makeHost config address name pool

/-- The pools of hosts. -/
def makePools (portFlag : String) (names : List String) : List Pool :=
  names.map fun label => { label, runner := .machine portFlag }

/-- The plugins of hosts that cannot be called. -/
def skippedNotes (config : Config) (address : String) (names : List String) : List Note :=
  names.flatMap fun host => (listedPlugins config host).filterMap fun (plugin, p) =>
    if (connection? address p).isNone then some (.skipped host plugin p.protocol) else none

/-- The installed plugins that can be called. -/
def startTargets (r : Registry) : List Target :=
  r.hosts.flatMap fun h =>
    match r.container h.name with
    | .ok c => (c.plugins.names.filter fun p => (h.connection p).isOk).map fun p => ⟨h.name, p⟩
    | .error _ => []

/-! ## The first call -/

/-- How long a plugin may take for its first answer, in milliseconds. -/
def pingLimit : Nat :=
  10000

/-- The error of a plugin that took too long. -/
def pingTimeout : Error :=
  .callFailed (.other "no ping reply within 10s")

/-- What came of the first call of a plugin. -/
structure Greeting where
  reply : Except Error String
  /-- When that was known. -/
  finish : Nat
  /-- What the plugin was asked, and at which port. -/
  asked : List (UInt16 × Http.Request) := []

/-- The text of an answer. -/
def replyText : Answer → String
  | .text s => s
  | .bytes bs => Utf8.decodeLossy bs

/-- What a line asks at a port in so many attempts. -/
def askedBy (l : CallLine) (attempts : Nat) : List (UInt16 × Http.Request) :=
  match l.line with
  | .rest o => if o.isLocal then List.replicate attempts (o.port, Rest.request .ping) else []
  | .rpc .. => []

/-- What is known of a first call after so many attempts: its result and when that was
    there, or that it was given up at a moment. -/
def Greeting.ofCall (l : CallLine) (limit attempts : Nat) :
    Option (Except Error Answer × Nat) → Greeting
  | some (result, finish) => ⟨replyText <$> result, finish, askedBy l attempts⟩
  | none => ⟨.error pingTimeout, limit, askedBy l attempts⟩

/-- Calls a plugin for the first time.  The call is given up when it has taken too long;
    no attempt takes less than a moment together with the wait after it. -/
def greet (s : System) (h : Handle) : Greeting :=
  let limit := s.now + pingLimit
  let call := h.call.policy.runUntil ((Peer.wire s.network).attempt .ping h.call) limit pingLimit
    0 s.now (s.peers, 0)
  .ofCall h.call limit call.starts.length call.ended

/-! ## Starting -/

/-- The beginnings of the starts of plugins, one after another, in their order. -/
def beginStarts (r : Registry) :
    List Target → System → List (Target × Except Error Registry.HandleStep) × System
  | [], s => ([], s)
  | t :: ts, s =>
    let (step, s) := r.beginHandle s t.host t.plugin
    let (steps, s) := beginStarts r ts s
    ((t, step) :: steps, s)

/-- When a start comes to its end. -/
def startDue : Except Error Registry.HandleStep → Nat
  | .ok (.starting _ launch) => launch.due
  | _ => 0

/-- The end of the start of a plugin: the handle on it, if there is one. -/
def endStart (s : System) (t : Target) :
    Except Error Registry.HandleStep → Except Error Handle × System
  | .ok step => Registry.finishHandle s t.host t.plugin step
  | .error e => (.error e, s)

/-- The end of the start of a plugin when it is due, and its first call. -/
def finishStart (s : System) (t : Target) (step : Except Error Registry.HandleStep) :
    Greeting × System :=
  match endStart (s.advanceTo (startDue step)) t step with
  | (.ok h, s) => (greet s h, s)
  | (.error e, s) => (⟨.error e, s.now, []⟩, s)

/-- The ends of the starts of plugins, in the order in which they come. -/
def finishStarts : List (Nat × Target × Except Error Registry.HandleStep) → System →
    List (Nat × Target × Greeting) × System
  | [], s => ([], s)
  | (index, t, step) :: rest, s =>
    let (greeting, s) := finishStart s t step
    let (greetings, s) := finishStarts rest s
    ((index, t, greeting) :: greetings, s)

/-- Starts plugins at once and calls each of them as soon as it is started. -/
def startAll (r : Registry) (s : System) (targets : List Target) :
    List (Target × Greeting) × System :=
  let (steps, s) := beginStarts r targets s
  let numbered := steps.zipIdx.map fun ((t, step), index) => (index, t, step)
  let ordered := numbered.mergeSort fun a b => startDue a.2.2 ≤ startDue b.2.2
  let (greetings, s) := finishStarts ordered s
  let greetings := (greetings.mergeSort fun a b => a.1 ≤ b.1).map (·.2)
  (greetings, s.advanceTo ((greetings.map fun (_, g) => g.finish).max?.getD 0))

/-- The record of a first call. -/
def greetingNote : Target × Greeting → Note
  | (t, g) =>
    match g.reply with
    | .ok reply => .up t.host t.plugin reply
    | .error e => .silent t.host t.plugin e

/-! ## Serving -/

/-- What the program meets while it serves hosts. -/
structure World where
  surroundings : Surroundings := {}
  programs : Programs := fun _ _ _ => .error .notFound
  network : Http.Network := fun _ => .absent
  /-- After how long the program is asked to stop, in milliseconds. -/
  stopAfter : Nat := 0

/-- How hosts were served. -/
structure Service where
  notes : List Note := []
  failure : Option Failure := none
  /-- What plugins were asked in their first calls, and at which port. -/
  asked : List (UInt16 × Http.Request) := []
  /-- What is left when the program has ended. -/
  system : System := {}

/-- The records of the supervisor. -/
def deathNotes (s : System) : List Note :=
  s.journal.reverse.filterMap fun
    | (_, .signalled _ signal) => some (.died signal)
    | _ => none

/-- Looks after plugins until the program is asked to stop, and ends what is
    under way then. -/
def supervise (w : World) (interval : UInt64) (r : Registry) (s : System) : List Note × System :=
  let supervisor := Supervisor.withInterval {} (interval.toNat * 1000)
  match supervisor.setup r [.record ""] with
  | .error _ => ([.stopping], s)
  | .ok supervisor =>
    let st : Station := { registry := r, system := s, supervisor := supervisor.start s.now }
    let st := st.waitUntil (s.now + w.stopAfter)
    let deaths := deathNotes st.system
    let st := st.shutdown
    (deaths ++ .stopping :: (deathNotes st.system).drop deaths.length, st.system)

/-- Serves hosts whose plugins are installed.  With the program, all that watches
    its children ends. -/
def serveInstalled (w : World) (interval : UInt64) (r : Registry) (s : System) : Service :=
  let (greetings, s) := startAll r s (startTargets r)
  let (supervision, s) := supervise w interval r s
  let (errors, s) := r.killPlugins s
  { notes := greetings.map greetingNote ++ supervision ++ errors.map .unclean ++ [.stopped]
    asked := greetings.flatMap fun (_, g) => g.asked
    system := s.abandonChildren }

/-- Serves chosen hosts. -/
def serveHosts (w : World) (config : Config) (o : ServeOptions) (names : List String) : Service :=
  let skipped := skippedNotes config o.address names
  let r := Registry.ofHosts (makeHosts config o.address names) {}
  let s : System := {
    storage := w.surroundings.storage
    programs := w.programs
    network := w.network
    pools := makePools o.portFlag names }
  match r.install s.storage with
  | .error e => { notes := skipped, failure := some (.notInstalled e), system := s }
  | .ok r =>
    let service := serveInstalled w o.interval r s
    { service with notes := skipped ++ service.notes }

/-- Loads the configuration and serves the hosts that are asked for. -/
def serve (w : World) (path : Option String) (o : ServeOptions) : Service :=
  match loadConfig w.surroundings path with
  | .error failure => { failure := some failure }
  | .ok (path, config) =>
    let service : Service := match selectedHosts config o.hosts with
      | .error failure => { failure := some failure }
      | .ok names => serveHosts w config o names
    { service with notes := .configured path :: service.notes }

end CommandLine

end PluginHost
