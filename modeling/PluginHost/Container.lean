/-
  PluginHost.Container

  The plugins of one host: installed once, then started and called.  Starting
  takes time, so it is split into its beginning and its end.
-/
import PluginHost.Install
import PluginHost.System

namespace PluginHost

/-- The plugins of a host. -/
structure Container where
  installer : Installer
  /-- The pool that its processes run in. -/
  pool : Nat
  policy : Retry.Policy := {}
  installed : Bool := false
  plugins : PluginSet := .empty

/-- A plugin that can be called. -/
structure Handle where
  name : String
  protocol : Protocol
  info : PluginMeta
  call : CallLine

namespace Container

/-- The name of the host. -/
def host (c : Container) : String :=
  c.installer.host

/-- Whether the installation has succeeded. -/
def isInstalled (c : Container) : Bool :=
  c.installed

/-- What is known of an installed plugin. -/
def info (c : Container) (plugin : String) : Except Error PluginMeta :=
  match c.plugins.get? plugin with
  | some p => .ok p
  | none => .error (.pluginUnknown plugin)

/-- What a setup comes to: its result, the container afterwards, and the files
    whose digests it asked for. -/
structure Setup where
  result : Except Error Unit
  container : Container
  asked : List String := []

/-- Installs the plugins, unless that was done before. -/
def setup (c : Container) (storage : Storage) : Setup :=
  if c.isInstalled then ⟨.ok (), c, []⟩
  else
    let done := c.installer.install storage c.installer.resolve
    match done.outcome with
    | .ok plugins => ⟨.ok (), { c with plugins, installed := true }, done.asked⟩
    | .error e => ⟨.error e, c, done.asked⟩

/-! ## Starting -/

/-- What the runner is asked for to start a plugin. -/
def request (name : String) (p : PluginMeta) (port : UInt16) : SpawnRequest where
  name
  command := p.command
  arguments := p.arguments
  port
  grace := p.graceSeconds.toNat * 1000

/-- Begins to start a plugin at a port. -/
def beginRun (c : Container) (s : System) (plugin : String) (port : UInt16) :
    Except Error Launch × System :=
  match c.info plugin with
  | .error e => (.error e, s)
  | .ok p => s.beginStart c.pool (request plugin p port)

/-- Ends a start: the process is entered, or told to stop if another one was
    faster. -/
def finishRun (s : System) (l : Launch) : Except Error Unit × System :=
  match s.finishStart l with
  | (.error e, s) => (.error e, s)
  | (.ok p, s) => s.enter l.pool p

/-! ## Calling -/

/-- A handle on a plugin, by a line that is made for its protocol and a port. -/
def handle (c : Container) (plugin : String) (port : UInt16)
    (line : Protocol → UInt16 → Option Connection.Line) (peer : String) :
    Except Error Handle := do
  let p ← c.info plugin
  let protocol ← Protocol.parse p.protocol
  match line protocol port with
  | some line => return ⟨plugin, protocol, p, ⟨line, peer, c.policy⟩⟩
  | none => throw (.protocolUnknown protocol.name)

end Container

end PluginHost
