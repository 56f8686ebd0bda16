/-
  PluginHost.Rehearsal.Shell.Builtin

  What a shell does by itself, and the programs that it starts.
-/
import PluginHost.Rehearsal.Field
import PluginHost.Rehearsal.Shell

namespace PluginHost

namespace Rehearsal

namespace Shell

/-! ## Programs -/

/-- A program that ends, with what it leaves behind. -/
def runTool (sh : Shell) (tool : Tool) (arguments : List String) : Shell :=
  let e := tool { arguments, input := sh.input, storage := sh.stage.storage }
  let sh := ({ sh with input := e.rest }.write e.output).ending e.status
  if e.complaint = "" then sh else sh.complain e.complaint

/-- Whether a text is a length of time. -/
def isDuration (s : String) : Bool :=
  let digits := if ["s", "m", "h", "d"].any (s.endsWith ·) then s.toList.dropLast else s.toList
  !digits.isEmpty && digits.all (fun c => c.isDigit || c = '.') && digits.countP (· = '.') ≤ 1

/-- Sleeps. -/
def sleep (sh : Shell) (arguments : List String) : Shell :=
  match Tool.strangeOption? (fun _ => false) arguments, arguments.find? (!isDuration ·) with
  | some option, _ => sh.runTool (Tool.strange · "sleep" option) arguments
  | none, some a =>
    (sh.complain ("sleep: invalid time interval '" ++ a
      ++ "'\nTry 'sleep --help' for more information.\n")).ending 1
  | none, none =>
    if arguments.isEmpty then
      (sh.complain "sleep: missing operand\nTry 'sleep --help' for more information.\n").ending 1
    else if arguments.all fun a => a.toList.all fun c => !c.isDigit ∨ c = '0' then sh.ending 0
    else sh.pause.ending 0

/-- What is there on every machine and is no program. -/
def nonPrograms : List String :=
  [".", "..", "/bin", "/dev", "/dev/null", "/etc", "/etc/passwd", "/home", "/root", "/tmp", "/usr",
    "/usr/bin", "/var"]

/-- What keeps a program from being started. -/
def startFault? (storage : Storage) (command : String) : Option IoFault :=
  if command = "" then some .notFound
  else if nonPrograms.contains command then some .permissionDenied
  else if command.contains '/' then
    match storage.node command with
    | .ok _ => some .permissionDenied
    | .error fault => some fault
  else some .notFound

/-- The name of a program without the usual directories. -/
def programName (command : String) : String :=
  match ["/bin/", "/usr/bin/", "/usr/local/bin/"].find? fun d => d.toList.isPrefixOf command.toList with
  | some d => String.ofList (command.toList.drop d.length)
  | none => command

/-- The names that shells go by. -/
def shellNames : List String :=
  ["sh", "dash"]

/-- Whether a name is that of a program that is known. -/
def isKnown (name : String) : Bool :=
  (Tool.all.lookup name).isSome || name = "sleep" || shellNames.contains name

/-! ## Builtins -/

/-- The number of loops that a word means. -/
def loopCount (arguments : List String) : Nat :=
  ((arguments.head?.bind String.toNat?).getD 1) - 1

/-- The name of a signal. -/
def signalName (s : String) : String :=
  let s := s.toUpper
  match s with
  | "15" => "TERM"
  | "9" => "KILL"
  | "2" => "INT"
  | "1" => "HUP"
  | "0" => "EXIT"
  | s => if s.startsWith "SIG" then String.ofList (s.toList.drop 3) else s

/-- Sets what is done about signals. -/
def setTraps (sh : Shell) : List String → Shell
  | [] => sh.ending 0
  | [_] => sh.ending 0
  | text :: names =>
    let names := names.map signalName
    let others := sh.traps.filter fun t => !names.contains t.1
    let traps := if text = "-" then others else names.map (·, text) ++ others
    { sh with traps, status := 0 }

/-- Sends a signal; only the shell itself can be reached. -/
def sendSignal (sh : Shell) (arguments : List String) : Shell :=
  let (name, targets) := match arguments with
    | "-s" :: name :: targets => (signalName name, targets)
    | first :: targets =>
      match first.toList with
      | '-' :: cs => (signalName (String.ofList cs), targets)
      | _ => ("TERM", first :: targets)
    | [] => ("TERM", [])
  if !targets.contains ownNumber then sh.ending 0
  else if name = "EXIT" then sh.ending 0
  else if name = "KILL" then { sh with control := .ended }
  else (sh.signal name).ending 0

/-- Reads a line into variables. -/
def readLine (sh : Shell) (arguments : List String) : Shell :=
  let names := arguments.filter (· ≠ "-r")
  let line := sh.input.takeLines 1
  let complete := line.getLast? = some Stream.newline
  let text := Utf8.decodeLossy (if complete then line.dropLast else line)
  let words := (text.toList.splitOnP isBlank).filter (!·.isEmpty) |>.map String.ofList
  let values (i : Nat) : String :=
    if i + 1 = names.length then " ".intercalate (words.drop i) else words.getD i ""
  let sh := { sh with input := sh.input.drop line.length }
  (names.zipIdx.foldl (fun sh (name, i) => sh.assign name (values i)) sh).ending
    (if complete then 0 else 1)

/-- Sets the variables that are given as `name=value`. -/
def setAll (sh : Shell) (arguments : List String) : Shell :=
  (arguments.foldl (fun sh a =>
    let name := a.toList.takeWhile (· ≠ '=')
    if name.length = a.length then sh
    else sh.assign (String.ofList name) (String.ofList (a.toList.drop (name.length + 1)))) sh).ending 0

/-- Commands that change the shell itself and carry out no others. -/
def builtin? (sh : Shell) (name : String) (arguments : List String) : Option Shell :=
  match name with
  | "exit" =>
    some { sh with control := .leaving, status := (arguments.head?.bind String.toNat?).getD sh.status % 256 }
  | "return" =>
    some { sh with control := .returning, status := (arguments.head?.bind String.toNat?).getD sh.status }
  | "break" => some { sh with control := .breaking (loopCount arguments), status := 0 }
  | "continue" => some { sh with control := .continuing (loopCount arguments), status := 0 }
  | "shift" =>
    let n := (arguments.head?.bind String.toNat?).getD 1
    some { sh with parameters := sh.parameters.drop n, status := 0 }
  | "set" =>
    match arguments with
    | "--" :: rest => some { sh with parameters := rest, status := 0 }
    | "-e" :: _ => some { sh with strict := true, status := 0 }
    | "+e" :: _ => some { sh with strict := false, status := 0 }
    | _ => some (sh.ending 0)
  | "unset" =>
    some { sh with bound := sh.bound.filter (!arguments.contains ·.1), status := 0 }
  | "export" | "readonly" | "local" => some (sh.setAll arguments)
  | "trap" => some (sh.setTraps arguments)
  | "kill" => some (sh.sendSignal arguments)
  | "read" => some (sh.readLine arguments)
  | "umask" | "cd" => some (sh.ending 0)
  | "sleep" => some (sh.sleep arguments)
  | _ => none

/-- What is left of the traps of a program that another one takes the place of:
    signals that it took no notice of. -/
def inheritedTraps (sh : Shell) : List (String × String) :=
  sh.traps.filter fun t => t.2 = "" ∧ t.1 ≠ "EXIT"

end Shell

end Rehearsal

end PluginHost
