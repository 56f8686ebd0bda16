/-
  PluginHost.Call.Protocol

  The protocols that plugins speak, and the settings for each of them.
-/
import PluginHost.Call.Rest
import PluginHost.Call.Rpc

namespace PluginHost

/-- A protocol that plugins speak. -/
inductive Protocol where
  | rest
  | grpc
  deriving DecidableEq

namespace Protocol

/-- All protocols. -/
def all : List Protocol :=
  [.rest, .grpc]

/-- The name of a protocol. -/
def name : Protocol → String
  | .rest => "rest"
  | .grpc => "grpc"

/-- The protocol of a name. -/
def parse (s : String) : Except Error Protocol :=
  match all.find? fun p => p.name = s with
  | some p => .ok p
  | none => .error (.protocolUnknown s)

end Protocol

/-- The settings for reaching a plugin, for each protocol that it may be reached by. -/
structure Connection where
  rest : Option Rest.Options := none
  /-- The port for calls over a connection. -/
  rpc : Option UInt16 := none
  /-- Who makes the connections.  Settings that name no connector bring along their own
      one. -/
  connector : Option String := none

namespace Connection

/-- The port for a protocol. -/
def port (c : Connection) : Protocol → Option UInt16
  | .rest => c.rest.map (·.port)
  | .grpc => c.rpc

/-- Whether there is no setting at all. -/
def isEmpty (c : Connection) : Bool :=
  c.rest.isNone && c.rpc.isNone

/-- A way to reach a plugin at a port. -/
inductive Line where
  | rest (o : Rest.Options)
  /-- A connection that is made by the connector of the settings. -/
  | rpc (port : UInt16) (connector : Option String)

/-- The line to a port by a protocol, if there are settings for it; all settings
    but the port are kept. -/
def line (c : Connection) (p : Protocol) (port : UInt16) : Option Line :=
  match p with
  | .rest => c.rest.map fun o => .rest { o with port }
  | .grpc => c.rpc.map fun _ => .rpc port c.connector

end Connection

end PluginHost
