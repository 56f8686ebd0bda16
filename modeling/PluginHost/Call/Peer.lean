/-
  PluginHost.Call.Peer

  Other ends with prepared replies.
-/
import PluginHost.Call.Wire
import PluginHost.NameMap

namespace PluginHost

/-- Another end: the replies it has prepared, and what it has seen. -/
structure Peer where
  replies : List Rpc.Prepared := []
  seen : List Rpc.Event := []

namespace Peer

/-- The peer after something that it sees. -/
def see (p : Peer) (e : Rpc.Event) : Peer :=
  { p with seen := p.seen ++ [e] }

/-- Whoever dials gets the next reply, for the call that may follow. -/
def dial (p : Peer) (port : UInt16) : Except String Rpc.Prepared × Peer :=
  let p' := { p with replies := p.replies.drop 1 }.see (.connect port)
  match p.replies.headD .standard with
  | .refused detail => (.error detail, p')
  | reply => (.ok reply, p')

/-- The peer that a connector reaches. -/
def behind (peers : NameMap Peer) (connector : String) : Peer :=
  (peers.get? connector).getD {}

/-- The servers of this machine and the peers that connectors reach, and how many
    requests were sent.  A connection is known by its connector and the reply that it
    will bring. -/
def wire (network : Http.Network) : Wire (NameMap Peer × Nat) (String × Rpc.Prepared) where
  request k r s := (Rest.exchange k network s.2 r, s.1, s.2 + 1)
  dial connector port s :=
    let (result, p) := (behind s.1 connector).dial port
    ({ value := (connector, ·) <$> result }, s.1.insert connector p, s.2)
  call connection c s :=
    let result := match connection.2.outcome c with
      | .refused detail | .broken detail => .error detail
      | .reply status response => .ok (status, response)
    let p := (behind s.1 connection.1).see (.call c)
    ({ value := result }, s.1.insert connection.1 p, s.2)

end Peer

namespace CallLine

/-- How many replies are prepared for the attempts of a call. -/
def replyCount (l : CallLine) (network : Http.Network) (peers : NameMap Peer) : Nat :=
  match l.line with
  | .rest o => (Rest.localPort? o.baseUrl).elim 0 fun port => (network port).replyCount
  | .rpc _ connector => (Peer.behind peers (connector.getD l.peer)).replies.length

/-- How many attempts may be made at most before it is clear that a call ends or
    does not. -/
def attemptLimit (l : CallLine) (network : Http.Network) (peers : NameMap Peer) : Nat :=
  l.replyCount network peers + l.policy.maxAttempts.getD 0 + 1

/-- A call from a moment on: how it went, if it ends at all, and the peers
    afterwards. -/
def run (l : CallLine) (network : Http.Network) (peers : NameMap Peer) (call : Call) (now : Nat) :
    Option (Retry.Run Answer × NameMap Peer) := do
  let (run, peers, _) ← l.runOver (Peer.wire network) call now (l.attemptLimit network peers)
    (peers, 0)
  return (run, peers)

end CallLine

end PluginHost
