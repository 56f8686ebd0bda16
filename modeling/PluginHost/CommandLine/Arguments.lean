/-
  PluginHost.CommandLine.Arguments

  What the program is asked to do.  Options may come before the command, if they
  belong to all commands, or after it.  The value of an option follows it, or is
  attached to it.
-/
import PluginHost.Process.Runner
import PluginHost.Supervisor

namespace PluginHost

namespace CommandLine

/-! ## Requests -/

/-- How hosts are served. -/
structure ServeOptions where
  /-- The hosts; all of them if there are none. -/
  hosts : List String := []
  /-- The address at which plugins listen. -/
  address : String := "127.0.0.1"
  /-- How often plugins are looked after, in seconds. -/
  interval : UInt64 := 5
  /-- The flag that comes before the port when a plugin is started. -/
  portFlag : String := defaultPortFlag
  deriving DecidableEq

/-- What is to be done. -/
inductive Command where
  /-- Plugins are started and looked after. -/
  | run (options : ServeOptions)
  /-- It is reported what the hosts may run; all of them if there are none. -/
  | check (hosts : List String)
  deriving DecidableEq

/-- What the program is asked to do. -/
structure Request where
  /-- The path of the configuration, if it is given. -/
  config : Option String := none
  /-- Whether records are written as objects. -/
  json : Bool := false
  command : Command
  deriving DecidableEq

/-- Why arguments are no request. -/
inductive UsageFault where
  | commandMissing
  | unexpected (argument : String)
  | valueMissing (option : String)
  | valueUnneeded (option : String)
  | valueInvalid (option value : String)
  | repeated (option : String)
  /-- An explanation of the arguments is asked for. -/
  | helpWanted
  deriving DecidableEq

/-- What the user is told of a fault. -/
def UsageFault.message : UsageFault → String
  | .commandMissing => "error: a command is required: run or check"
  | .unexpected argument => "error: unexpected argument '" ++ argument ++ "' found"
  | .valueMissing option => "error: a value is required for '--" ++ option ++ "'"
  | .valueUnneeded option => "error: no value is expected for '--" ++ option ++ "'"
  | .valueInvalid option value => "error: invalid value '" ++ value ++ "' for '--" ++ option ++ "'"
  | .repeated option => "error: '--" ++ option ++ "' cannot be used multiple times"
  | .helpWanted => "Usage: tether [OPTIONS] run|check [OPTIONS]"

/-! ## Options -/

/-- The words for commands. -/
inductive Verb where
  | run
  | check
  deriving DecidableEq

/-- The verb that a word stands for. -/
def Verb.ofText? : String → Option Verb
  | "run" => some .run
  | "check" => some .check
  | _ => none

/-- An option. -/
inductive Flag where
  | config
  | json
  | host
  | address
  | interval
  | portFlag
  | help
  deriving DecidableEq

namespace Flag

/-- The long name of an option. -/
def name : Flag → String
  | config => "config"
  | json => "json"
  | host => "host"
  | address => "addr"
  | interval => "interval"
  | portFlag => "port-flag"
  | help => "help"

/-- The letter of an option, if it has one. -/
def letter? : Flag → Option Char
  | config => some 'c'
  | help => some 'h'
  | _ => none

/-- Whether an option has a value. -/
def hasValue : Flag → Bool
  | json | help => false
  | _ => true

/-- Whether the value of an option may look like an option. -/
def takesDashes : Flag → Bool
  | portFlag => true
  | _ => false

/-- Whether an option may be given more than once. -/
def isList : Flag → Bool
  | host => true
  | _ => false

/-- The options before the command, and after it. -/
def allowed : Option Verb → List Flag
  | none => [config, json, help]
  | some .check => [config, json, help, host]
  | some .run => [config, json, help, host, address, interval, portFlag]

end Flag

/-- An option that was given, with its value. -/
structure Given where
  flag : Flag
  value : String := ""
  deriving DecidableEq

/-! ## Reading -/

/-- Whether an argument looks like an option. -/
def looksLikeOption (argument : String) : Bool :=
  match argument.toList with
  | '-' :: _ :: _ => true
  | _ => false

/-- An argument as it is read. -/
inductive Piece where
  /-- An option by its long name, with what is attached to it. -/
  | long (name : String) (attached : Option String)
  /-- An option by its letter, with what is attached to it. -/
  | short (letter : Char) (attached : Option String)
  /-- The mark after which there are no options. -/
  | endOfOptions
  | word (text : String)

/-- What comes after the letter of an option; a sign of equality may stand in
    between. -/
def attachedToLetter : List Char → Option String
  | [] => none
  | '=' :: cs => some (String.ofList cs)
  | cs => some (String.ofList cs)

/-- The kind of an argument. -/
def Piece.ofArgument (argument : String) : Piece :=
  match argument.toList with
  | ['-', '-'] => .endOfOptions
  | '-' :: '-' :: cs =>
    let name := cs.takeWhile (· ≠ '=')
    match cs.drop name.length with
    | [] => .long (String.ofList name) none
    | _ :: value => .long (String.ofList name) (some (String.ofList value))
  | '-' :: c :: cs => .short c (attachedToLetter cs)
  | _ => .word argument

/-- What is read before a command or after it. -/
structure Section where
  given : List Given := []
  /-- The command that ends the section, with the arguments after it. -/
  next : Option (Verb × List String) := none

/-- The section with an option in front. -/
def Section.add (s : Section) (g : Given) : Section :=
  { s with given := g :: s.given }

/-- What an argument means where it stands. -/
inductive Meaning where
  /-- There are no options after it. -/
  | closing
  | command (verb : Verb)
  /-- An option that is complete. -/
  | given (g : Given)
  /-- An option whose value is the next argument. -/
  | awaiting (flag : Flag)

/-- What an option means, with what is attached to it. -/
def Meaning.ofFlag (flag : Flag) (attached : Option String) : Except UsageFault Meaning :=
  if flag = .help then .error .helpWanted
  else
    match flag.hasValue, attached with
    | false, none => .ok (.given ⟨flag, ""⟩)
    | false, some _ => .error (.valueUnneeded flag.name)
    | true, some value => .ok (.given ⟨flag, value⟩)
    | true, none => .ok (.awaiting flag)

/-- What an argument means before a command, or after one. -/
def Meaning.ofArgument (verb : Option Verb) (argument : String) : Except UsageFault Meaning :=
  let find (p : Flag → Bool) (attached : Option String) :=
    match (Flag.allowed verb).find? p with
    | some flag => ofFlag flag attached
    | none => .error (.unexpected argument)
  match Piece.ofArgument argument with
  | .endOfOptions => .ok .closing
  | .long name attached => find (·.name = name) attached
  | .short letter attached => find (·.letter? = some letter) attached
  | .word text =>
    match verb, Verb.ofText? text with
    | none, some v => .ok (.command v)
    | none, none => .error (if text = "help" then .helpWanted else .unexpected text)
    | some _, _ => .error (.unexpected text)

/-- Reads options up to a command, or up to the end. -/
def readSection (verb : Option Verb) : List String → Except UsageFault Section
  | [] => .ok {}
  | argument :: rest => do
    match ← Meaning.ofArgument verb argument with
    | .closing =>
      match rest with
      | [] => return {}
      | extra :: _ => throw (.unexpected extra)
    | .command v => return { next := some (v, rest) }
    | .given g => return (← readSection verb rest).add g
    | .awaiting flag =>
      match rest with
      | [] => throw (.valueMissing flag.name)
      | value :: rest =>
        if looksLikeOption value ∧ !flag.takesDashes then throw (.valueMissing flag.name)
        else return (← readSection verb rest).add ⟨flag, value⟩

/-! ## Values -/

/-- The greatest number that may be given. -/
def maxNumber : Nat :=
  UInt64.size - 1

/-- The number that a text stands for: decimal digits, with a plus sign in front
    or without. -/
def number? (text : String) : Option UInt64 :=
  let digits := match text.toList with
    | '+' :: cs => cs
    | cs => cs
  if digits = [] ∨ !digits.all Char.isDigit then none
  else
    let n := digits.foldl (fun n c => 10 * n + (c.toNat - '0'.toNat)) 0
    if n ≤ maxNumber then some (UInt64.ofNat n) else none

/-- Checks an option by itself. -/
def Given.validate (g : Given) : Except UsageFault Unit :=
  match g.flag with
  | .config => if g.value = "" then .error (.valueInvalid g.flag.name g.value) else .ok ()
  | .interval => if (number? g.value).isNone then .error (.valueInvalid g.flag.name g.value) else .ok ()
  | _ => .ok ()

/-- Checks the options of a section: those that are no lists come once. -/
def validate : List Given → Except UsageFault Unit
  | [] => .ok ()
  | g :: gs => do
    g.validate
    if !g.flag.isList ∧ gs.any (·.flag = g.flag) then throw (.repeated g.flag.name)
    validate gs

/-- The value of an option. -/
def value? (gs : List Given) (flag : Flag) : Option String :=
  (gs.find? fun g => g.flag = flag).map (·.value)

/-- The values of an option that may come more than once. -/
def values (gs : List Given) (flag : Flag) : List String :=
  (gs.filter fun g => g.flag = flag).map (·.value)

/-- The command of a verb with its options. -/
def Command.ofGiven (verb : Verb) (gs : List Given) : Command :=
  let hosts := values gs .host
  match verb with
  | .check => .check hosts
  | .run =>
    let defaults : ServeOptions := {}
    .run {
      hosts
      address := (value? gs .address).getD defaults.address
      interval := ((value? gs .interval).bind number?).getD defaults.interval
      portFlag := (value? gs .portFlag).getD defaults.portFlag }

/-- The request that arguments stand for.  Of an option that is given before the
    command and after it, the second one counts. -/
def Request.ofArguments (arguments : List String) : Except UsageFault Request := do
  let before ← readSection none arguments
  validate before.given
  match before.next with
  | none => throw .commandMissing
  | some (verb, rest) =>
    let after ← readSection (some verb) rest
    validate after.given
    return {
      config := value? after.given .config <|> value? before.given .config
      json := (before.given ++ after.given).any (·.flag = .json)
      command := .ofGiven verb after.given }

end CommandLine

end PluginHost
