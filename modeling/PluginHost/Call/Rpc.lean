/-
  PluginHost.Call.Rpc

  Plugins that are called over a connection.  Every call makes a connection of
  its own.
-/
import PluginHost.Call
import PluginHost.Call.Envelope
import PluginHost.Error

namespace PluginHost

namespace Rpc

/-- What comes of a call. -/
inductive Outcome where
  /-- There was no connection. -/
  | refused (detail : String)
  /-- There was a connection, but no reply. -/
  | broken (detail : String)
  | reply (status : String) (response : Answer)

/-- What a plugin or whoever watches the connections gets to see. -/
inductive Event where
  | connect (port : UInt16)
  | call (c : Call)
  deriving DecidableEq

/-- What is seen of a call: the connection, and the call if the connection was
    made. -/
def events (port : UInt16) (c : Call) : Outcome → List Event
  | .refused _ => [.connect port]
  | _ => [.connect port, .call c]

/-- What a call comes to.  A reply counts only if its status is success. -/
def judge (port : UInt16) : Outcome → Except Error Answer
  | .refused detail =>
    .error (.connectFailed ("port " ++ toString port.toNat ++ ": " ++ detail))
  | .broken detail => .error (.replyFailed detail)
  | .reply status response =>
    if status = Envelope.successStatus then .ok response
    else .error (.replyFailed ("status " ++ status))

/-! ## Prepared replies -/

/-- A prepared reply to the call of one connection. -/
inductive Prepared where
  | refused (detail : String)
  | broken (detail : String)
  /-- A reply with a text for a ping and bytes for a command.  What is not set is
      `pong`, and the payload of the command. -/
  | reply (status : String) (text : Option String) (bytes : Option Bytes)

/-- The reply that is given when no other is prepared. -/
def Prepared.standard : Prepared :=
  .reply Envelope.successStatus none none

/-- What comes of a call that gets a prepared reply. -/
def Prepared.outcome (c : Call) : Prepared → Outcome
  | .refused detail => .refused detail
  | .broken detail => .broken detail
  | .reply status text bytes =>
    match c with
    | .ping => .reply status (.text (text.getD "pong"))
    | .exec _ payload => .reply status (.bytes (bytes.getD payload))

end Rpc

end PluginHost
