/-
  PluginHost.Call.Envelope

  The JSON form of requests and answers.  An answer travels in an envelope: a
  status, and data or a message, each of which may be absent.
-/
import PluginHost.Json.Reader
import PluginHost.Json.Value

namespace PluginHost

open Schema

/-- An object written with its entries in the given order. -/
def Json.writeRecord (entries : List (String × List Char)) : String :=
  let parts := entries.map fun (k, cs) => Json.Value.quote k ++ ':' :: cs
  String.ofList ('\x7b' :: Json.Value.commaSeparated parts ++ ['\x7d'])

/-! ## Envelopes -/

/-- An answer as it travels. -/
structure Envelope where
  status : String
  data : Option Json.Value := none
  message : Option String := none

namespace Envelope

/-- The status of an answer that reports no failure. -/
def successStatus : String :=
  "success"

/-- The answer that a call has succeeded. -/
def success (response : Json.Value) : Envelope where
  status := successStatus
  data := some response

/-- The answer that a call has failed. -/
def failure (message : String) : Envelope where
  status := "error"
  message := some message

/-- The data of an envelope written out. -/
def dataChars (response : Json.Value) : List Char :=
  (Json.writeRecord [("response", response.chars)]).toList

/-- An envelope written out; what is absent is left out. -/
def render (e : Envelope) : String :=
  let data := e.data.map fun d => ("data", dataChars d)
  let message := e.message.map fun m => ("message", Json.Value.quote m)
  Json.writeRecord (("status", Json.Value.quote e.status) :: data.toList ++ message.toList)

/-- How deep lists and maps may be nested in a response: 127 levels, less the
    envelope and its data. -/
def responseRoom : Nat :=
  125

/-- The fields of the data of an envelope. -/
inductive DataField where
  | response
  deriving DecidableEq

/-- The record of the data of an envelope. -/
def dataRecord : Record DataField (Option Json.Value) Json.Value where
  title := "JsonData"
  fields := [.response]
  name _ := "response"
  fieldOf
    | "response" => some .response
    | _ => none
  blank := none
  filled draft _ := draft.isSome
  fill _ _ d := some <$> Json.Value.ofDocument responseRoom d
  finish
    | some v => .ok v
    | none => .error .response

/-- The fields of an envelope. -/
inductive Field where
  | status | data | message
  deriving DecidableEq

/-- The fields of an envelope as far as they were given. -/
structure Draft where
  status : Option String := none
  data : Option (Option Json.Value) := none
  message : Option (Option String) := none

/-- The record of an envelope: only the status must be given. -/
def record : Record Field Draft Envelope where
  title := "JsonResponse"
  fields := [.status, .data, .message]
  name
    | .status => "status"
    | .data => "data"
    | .message => "message"
  fieldOf
    | "status" => some .status
    | "data" => some .data
    | "message" => some .message
    | _ => none
  blank := {}
  filled draft
    | .status => draft.status.isSome
    | .data => draft.data.isSome
    | .message => draft.message.isSome
  fill draft
    | .status, d => do return { draft with status := some (← text d) }
    | .data, d => do return { draft with data := some (← option (dataRecord.read .refused) d) }
    | .message, d => do return { draft with message := some (← option text d) }
  finish draft :=
    match draft.status with
    | some status => .ok ⟨status, draft.data.getD none, draft.message.getD none⟩
    | none => .error .status

/-- The envelope that a text holds. -/
def parse (s : String) : Read Envelope :=
  Json.readAs (record.read .refused) s

end Envelope

/-! ## Requests -/

/-- A command on its way to a plugin, with its payload in hexadecimal digits. -/
structure ExecRequest where
  command : String
  payload : String

namespace ExecRequest

/-- A request written out. -/
def render (r : ExecRequest) : String :=
  Json.writeRecord [
    ("command", Json.Value.quote r.command),
    ("payload", Json.Value.quote r.payload)]

/-- The fields of a request. -/
inductive Field where
  | command | payload
  deriving DecidableEq

/-- The fields of a request as far as they were given. -/
structure Draft where
  command : Option String := none
  payload : Option String := none

/-- The record of a request: both fields must be given. -/
def record : Record Field Draft ExecRequest where
  title := "ExecRequest"
  fields := [.command, .payload]
  name
    | .command => "command"
    | .payload => "payload"
  fieldOf
    | "command" => some .command
    | "payload" => some .payload
    | _ => none
  blank := {}
  filled draft
    | .command => draft.command.isSome
    | .payload => draft.payload.isSome
  fill draft
    | .command, d => do return { draft with command := some (← text d) }
    | .payload, d => do return { draft with payload := some (← text d) }
  finish draft :=
    match draft.command, draft.payload with
    | some command, some payload => .ok ⟨command, payload⟩
    | none, _ => .error .command
    | some _, none => .error .payload

/-- The request at the front of a body. -/
def parse (body : Bytes) : Read ExecRequest :=
  Json.readFront (record.read .refused) (Json.textOfBytes body)

end ExecRequest

end PluginHost
