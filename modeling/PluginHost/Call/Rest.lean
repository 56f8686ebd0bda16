/-
  PluginHost.Call.Rest

  Plugins that are called by HTTP.  A ping is a `GET`, a command a `POST` with a
  JSON body, and the answer comes in an envelope.
-/
import PluginHost.Call
import PluginHost.Call.Envelope
import PluginHost.Error
import PluginHost.Http

namespace PluginHost

namespace Rest

/-! ## Settings -/

/-- How long a call may take if nothing else is said, in milliseconds. -/
def defaultTimeout : Nat :=
  5000

/-- How a plugin is reached. -/
structure Options where
  address : String
  port : UInt16
  /-- How long a call may take, in milliseconds. -/
  timeout : Nat := defaultTimeout

/-- The settings with another timeout; zero stands for the default. -/
def Options.withTimeout (o : Options) (timeout : Nat) : Options :=
  { o with timeout := if timeout = 0 then defaultTimeout else timeout }

/-- How long a call may take in fact. -/
def Options.effectiveTimeout (o : Options) : Nat :=
  if o.timeout = 0 then defaultTimeout else o.timeout

/-- The mark between a scheme and an address. -/
def schemeMark : List Char :=
  [':', '/', '/']

/-- Whether a text occurs in another one. -/
def occursIn (part : List Char) : List Char → Bool
  | [] => part.isEmpty
  | c :: cs => part.isPrefixOf (c :: cs) || occursIn part cs

/-- An address without slashes at its end and with a scheme. -/
def origin (address : String) : String :=
  let cs := (address.toList.reverse.dropWhile (· = '/')).reverse
  let scheme := if occursIn schemeMark cs then "" else "http://"
  scheme ++ String.ofList cs

/-- The address with the port. -/
def Options.baseUrl (o : Options) : String :=
  origin o.address ++ ":" ++ toString o.port.toNat

/-- Who makes the requests to a plugin: where they go, and how long each of them may
    take. -/
structure Caller where
  base : String
  timeout : Nat
  deriving DecidableEq

/-- The caller for a plugin that is reached as the settings say. -/
def Options.caller (o : Options) : Caller :=
  ⟨o.baseUrl, o.effectiveTimeout⟩

/-- The part of an address after its scheme, if the scheme is HTTP. -/
def afterScheme? (url : String) : Option (List Char) :=
  let front := url.toList.takeWhile (· ≠ ':')
  let rest := url.toList.drop front.length
  if front.map Char.toLower = "http".toList ∧ schemeMark.isPrefixOf rest then some (rest.drop 3)
  else none

/-- The names of this machine. -/
def localNames : List (List Char) :=
  ["127.0.0.1".toList, "localhost".toList]

/-- The port that a text names. -/
def portOf? (digits : List Char) : Option UInt16 :=
  let port := digits.foldl (fun n c => 10 * n + (c.toNat - '0'.toNat)) 0
  if !digits.isEmpty && digits.all Char.isDigit && port < UInt16.size then some (.ofNat port)
  else none

/-- The port of this machine that requests to an address go to, if they go to one. -/
def localPort? (url : String) : Option UInt16 := do
  let rest ← afterScheme? url
  let host := rest.takeWhile (· ≠ ':')
  if localNames.contains (host.map Char.toLower) then portOf? (rest.drop (host.length + 1))
  else none

/-- Whether requests to an address go to a port of this machine. -/
def Options.isLocal (o : Options) : Bool :=
  localPort? o.baseUrl = some o.port

/-! ## Requests and answers -/

/-- The request of a call. -/
def request : Call → Http.Request
  | .ping => ⟨"GET", "/ping", some "application/json", none, []⟩
  | .exec command payload =>
    ⟨"POST", "/exec", some "*/*", some "application/json",
      Utf8.encode (ExecRequest.render ⟨command, Hex.encode payload⟩)⟩

/-- The status that the answer to a call has to have. -/
def expectedStatus : Call → Nat
  | .ping => 200
  | .exec .. => 202

/-- The error of an answer with another status. -/
def refused (status : Nat) : Call → Error
  | .ping => .pingRefused status
  | .exec .. => .execRefused status

/-- The most bytes that a body may have. -/
def bodyLimit : Nat :=
  10 * 1024 * 1024

/-- The response in the body of an answer. -/
def response (body : Bytes) : Except Error Json.Value :=
  match Envelope.parse (Utf8.decodeLossy body) with
  | .error problem => .error (.callFailed (.malformed problem))
  | .ok envelope =>
    match envelope.data with
    | some v => .ok v
    | none => .error (.callFailed (.noData envelope.status))

/-- The answer in the response to a call. -/
def answer : Call → Json.Value → Except Error Answer
  | .ping, .text s => .ok (.text s)
  | .ping, v => .ok (.text v.render)
  | .exec .., .text s =>
    match Hex.decode s with
    | .ok bs => .ok (.bytes bs)
    | .error fault => .error (.undecodable fault.message)
  | .exec .., v => .error (.undecodable ("expected hex string, got " ++ v.render))

/-- What a call comes to.  The body is looked at before the status, and the
    status before what is in the body. -/
def judge (call : Call) : Http.Outcome → Except Error Answer
  | .lost detail => .error (.requestFailed detail)
  | .answered _ none => .error (.callFailed .unreadable)
  | .answered status (some body) =>
    if bodyLimit < body.length then .error (.callFailed .unreadable)
    else if status ≠ expectedStatus call then .error (refused status call)
    else response body >>= answer call

/-- What comes of a request, of an index that starts at zero.  It goes to the server at
    the port of the address, or to nobody, and is not waited for longer than it may
    take. -/
def exchange (k : Caller) (network : Http.Network) (index : Nat) (r : Http.Request) :
    Timed Http.Outcome :=
  match localPort? k.base with
  | none => { value := .lost k.base }
  | some port =>
    match (network port).reply? index r with
    | some t => if t.elapsed < k.timeout then t else ⟨k.timeout, .lost "timed out"⟩
    | none => ⟨k.timeout, .lost "timed out"⟩

/-- No request takes longer than it may. -/
theorem elapsed_exchange_le (k : Caller) (network : Http.Network) (index : Nat)
    (r : Http.Request) : (exchange k network index r).elapsed ≤ k.timeout := by
  unfold exchange
  split
  · exact Nat.zero_le _
  · split
    · split
      · rename_i h
        exact Nat.le_of_lt h
      · exact Nat.le_refl _
    · exact Nat.le_refl _

end Rest

end PluginHost
