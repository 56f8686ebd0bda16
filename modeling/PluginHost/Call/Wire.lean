/-
  PluginHost.Call.Wire

  What a call does at the other ends: it sends a request, or has a connection made and
  calls over it.  Every attempt of a call does that anew.
-/
import PluginHost.Call.Protocol
import PluginHost.Call.Retry

namespace PluginHost

/-- A way to call a plugin. -/
structure CallLine where
  line : Connection.Line
  /-- The connector that the settings bring along, if they name no other. -/
  peer : String
  policy : Retry.Policy

/-- The other ends, in a state `σ`, with connections `κ`.  What comes of anything that
    is done, and how long it takes, may depend on all that was done before. -/
structure Wire (σ κ : Type) where
  /-- A request to a plugin. -/
  request : Rest.Caller → Http.Request → σ → Timed Http.Outcome × σ
  /-- A connector dials a port: a connection, or why there is none. -/
  dial : String → UInt16 → σ → Timed (Except String κ) × σ
  /-- A call over a connection: status and response of the reply, or why there is
      none. -/
  call : κ → Call → σ → Timed (Except String (String × Answer)) × σ

namespace Wire

variable {σ κ : Type}

/-- A call over a connection that is made for it. -/
def converse (w : Wire σ κ) (connector : String) (port : UInt16) (c : Call) (s : σ) :
    Timed Rpc.Outcome × σ :=
  match w.dial connector port s with
  | (⟨dialled, .error detail⟩, s) => (⟨dialled, .refused detail⟩, s)
  | (⟨dialled, .ok connection⟩, s) =>
    match w.call connection c s with
    | (⟨called, .error detail⟩, s) => (⟨dialled + called, .broken detail⟩, s)
    | (⟨called, .ok (status, response)⟩, s) => (⟨dialled + called, .reply status response⟩, s)

/-- One attempt of a call. -/
def attempt (w : Wire σ κ) (c : Call) (l : CallLine) (s : σ) : Retry.Attempt Answer × σ :=
  match l.line with
  | .rest o =>
    let (t, s) := w.request o.caller (Rest.request c) s
    (⟨t.elapsed, Rest.judge c t.value⟩, s)
  | .rpc port connector =>
    let (t, s) := w.converse (connector.getD l.peer) port c s
    (⟨t.elapsed, Rpc.judge port t.value⟩, s)

end Wire

/-- A call from a moment on: how it went, if it ends within a number of attempts, and
    the other ends afterwards. -/
def CallLine.runOver {σ κ : Type} (l : CallLine) (w : Wire σ κ) (c : Call) (now fuel : Nat)
    (s : σ) : Option (Retry.Run Answer × σ) :=
  l.policy.runFrom (w.attempt c l) fuel 0 now s

end PluginHost
