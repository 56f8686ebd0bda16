/-
  PluginHost.Http

  Requests, what comes of them and when, and servers that answer.
-/
import PluginHost.Text.Utf8

namespace PluginHost

/-- Something that takes time, in milliseconds. -/
structure Timed (α : Type) where
  elapsed : Nat := 0
  value : α

namespace Http

/-- A request, as far as the other side sees it. -/
structure Request where
  method : String
  path : String
  accept : Option String
  contentType : Option String
  body : Bytes
  deriving DecidableEq

/-- What comes of a request. -/
inductive Outcome where
  /-- The request did not go out, or no answer came back. -/
  | lost (detail : String)
  /-- An answer; there is no body if it broke off. -/
  | answered (status : Nat) (body : Option Bytes)

/-- Whether an answer of a status never has a body. -/
def isBodiless (status : Nat) : Bool :=
  status = 204 || status = 304

/-- Whether a number can be the status of an answer. -/
def isStatus (status : Nat) : Bool :=
  100 ≤ status && status < 1000

/-! ## Servers -/

/-- A prepared reply. -/
inductive Reply where
  /-- The connection ends without an answer that can be understood. -/
  | none
  /-- An answer.  It announces `missing` bytes more than the body has. -/
  | answer (status : Nat) (body : Bytes) (missing : Nat)

/-- What comes of a request that gets a prepared reply. -/
def Reply.outcome : Reply → Outcome
  | .none => .lost "connection closed"
  | .answer status body missing =>
    if !isStatus status then .lost "bad status"
    else if isBodiless status then .answered status (some [])
    else .answered status (if missing = 0 then some body else Option.none)

/-- Who answers at an address. -/
inductive Server where
  /-- Nobody. -/
  | absent
  /-- Prepared replies, one for each request; the last one stays. -/
  | scripted (replies : List Reply)
  /-- A program that answers every request by itself. -/
  | program (answer : Request → Outcome)
  /-- It takes requests and never answers. -/
  | silent
  /-- It takes a while for what another one does at once, in milliseconds. -/
  | slow (delay : Nat) (server : Server)

/-- What comes of the request of an index, which starts at zero, and when; nothing if
    the server never answers. -/
def Server.reply? (s : Server) (index : Nat) (r : Request) : Option (Timed Outcome) :=
  match s with
  | .absent => some { value := .lost "connection refused" }
  | .scripted replies =>
    some { value := ((replies[index]? <|> replies.getLast?).getD .none).outcome }
  | .program answer => some { value := answer r }
  | .silent => none
  | .slow delay server =>
    (server.reply? index r).map fun t => { t with elapsed := delay + t.elapsed }

/-- Whether the requests that a server gets are recorded. -/
def Server.records : Server → Bool
  | .scripted _ => true
  | .slow _ server => server.records
  | _ => false

/-- How many different replies a server may have prepared. -/
def Server.replyCount : Server → Nat
  | .scripted replies => replies.length
  | .slow _ server => server.replyCount
  | _ => 0

/-- Who listens at each port of this machine. -/
abbrev Network := UInt16 → Server

end Http

end PluginHost
