/-
  PluginHost.EchoPlugin

  A plugin that gives payloads back, as they are or in capitals.
-/
import PluginHost.Call.Rest
import PluginHost.Http.MediaType

namespace PluginHost

namespace EchoPlugin

/-- A reply. -/
structure Reply where
  status : Nat
  /-- The text of the JSON body, if the reply has one. -/
  body : Option String := none

/-- The reply with an envelope. -/
def Reply.ofEnvelope (status : Nat) (e : Envelope) : Reply :=
  ⟨status, some e.render⟩

/-- The commands. -/
def run (command : String) (payload : Bytes) : Option Bytes :=
  if command = "echo" then some payload
  else if command = "upper" then
    some (payload.map fun b => if 97 ≤ b ∧ b ≤ 122 then b - 32 else b)
  else none

/-- The reply to a command. -/
def exec (r : ExecRequest) : Reply :=
  match Hex.decode r.payload with
  | .error fault => .ofEnvelope 400 (.failure fault.message)
  | .ok payload =>
    match run r.command payload with
    | none => .ofEnvelope 400 (.failure "Unknown command")
    | some output => .ofEnvelope 202 (.success (.text (Hex.encode output)))

/-- Whether a content type announces JSON: `application/json`, or a type of
    `application` with the suffix `json`. -/
def announcesJson (contentType : String) : Bool :=
  match Http.MediaType.parse? contentType with
  | some t => t.type = "application" && (t.subtype = "json" || t.suffix = some "json")
  | none => false

/-- The most bytes that the body of a command may have. -/
def bodyLimit : Nat :=
  2 * 1024 * 1024

/-- The reply to the body of a command. -/
def execBody (contentType : Option String) (body : Bytes) : Reply :=
  if (contentType.map announcesJson).getD false then
    if bodyLimit < body.length then ⟨413, none⟩
    else
      match ExecRequest.parse body with
      | .ok r => exec r
      | .error .form => ⟨400, none⟩
      | .error (.content _) => ⟨422, none⟩
  else ⟨415, none⟩

/-- The path of a request without the query and the fragment. -/
def route (path : String) : String :=
  String.ofList (path.toList.takeWhile fun c => c ≠ '?' ∧ c ≠ '#')

/-- The reply to a request. -/
def reply (method path : String) (contentType : Option String) (body : Bytes) : Reply :=
  match route path with
  | "/ping" =>
    if method = "GET" then .ofEnvelope 200 (.success (.text "pong"))
    else if method = "HEAD" then ⟨200, some ""⟩
    else ⟨405, none⟩
  | "/exec" => if method = "POST" then execBody contentType body else ⟨405, none⟩
  | _ => ⟨404, none⟩

/-- What a request to the plugin comes to. -/
def outcome (r : Http.Request) : Http.Outcome :=
  let reply := reply r.method r.path r.contentType r.body
  .answered reply.status (some (Utf8.encode (reply.body.getD "")))

end EchoPlugin

end PluginHost
