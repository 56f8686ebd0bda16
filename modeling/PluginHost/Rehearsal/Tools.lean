/-
  PluginHost.Rehearsal.Tools

  Programs that read their input, write, and end.
-/
import PluginHost.Rehearsal.Format
import PluginHost.Rehearsal.Stream
import PluginHost.Storage

namespace PluginHost

namespace Rehearsal

/-- What a program is given. -/
structure Task where
  arguments : List String
  input : Stream := {}
  storage : Storage := {}

/-- What a program leaves behind. -/
structure Effect where
  output : Stream := {}
  complaint : String := ""
  status : Nat := 0
  /-- What it has not read of its input. -/
  rest : Stream := {}

/-- A program that ends. -/
abbrev Tool := Task → Effect

namespace Tool

/-- Writes bytes and leaves the input alone. -/
def say (t : Task) (bs : Bytes) : Effect :=
  { output := { bytes := bs }, rest := t.input }

/-- Does nothing but end with a status. -/
def finish (status : Nat) (t : Task) : Effect :=
  { status, rest := t.input }

/-- Ends with a complaint. -/
def fail (t : Task) (name text : String) (status : Nat := 1) : Effect :=
  { complaint := name ++ ": " ++ text ++ "\n", status, rest := t.input }

/-- The first argument that looks like an option, apart from those that are
    known. -/
def strangeOption? (known : String → Bool) : List String → Option String
  | [] => none
  | "--" :: _ => none
  | a :: as =>
    match a.toList with
    | '-' :: _ :: _ => if known a then strangeOption? known as else some a
    | _ => strangeOption? known as

/-- The complaint about an option that is not known. -/
def strange (t : Task) (name option : String) : Effect :=
  let what := match option.toList with
    | '-' :: '-' :: _ => "unrecognized option '" ++ option ++ "'"
    | _ :: c :: _ => "invalid option -- '" ++ String.singleton c ++ "'"
    | _ => ""
  fail t name (what ++ "\nTry '" ++ name ++ " --help' for more information.")

/-- A program that takes certain options only. -/
def withOptions (name : String) (known : String → Bool) (run : Tool) : Tool := fun t =>
  match strangeOption? known t.arguments with
  | some option => strange t name option
  | none => run t

/-! ## Writing -/

/-- The arguments with blanks between them. -/
def joined (arguments : List String) : Bytes :=
  Utf8.encode (" ".intercalate arguments)

/-- Writes its arguments as they are. -/
def echo : Tool := fun t =>
  match t.arguments with
  | "-n" :: rest => say t (joined rest)
  | "-e" :: rest =>
    let text := (" ".intercalate rest).toList
    let (bs, stop) := unescape true (text.length + 1) text
    say t (if stop then bs else bs ++ [Stream.newline])
  | rest => say t (joined rest ++ [Stream.newline])

/-- Writes its arguments with their escapes replaced, as shells do. -/
def shellEcho : Tool := fun t =>
  let (ending, rest) := match t.arguments with
    | "-n" :: rest => ([], rest)
    | rest => ([Stream.newline], rest)
  let text := (" ".intercalate rest).toList
  let (bs, stop) := unescape true (text.length + 1) text
  say t (if stop then bs else bs ++ ending)

/-- Writes its arguments by a format. -/
def printf (strict : Bool) : Tool := fun t =>
  match t.arguments with
  | [] =>
    if strict then fail t "printf" "missing operand\nTry 'printf --help' for more information."
    else fail t "sh: 1: printf" "usage: printf format [arg ...]" 2
  | format :: arguments =>
    let (format, arguments) := match format, arguments with
      | "--", f :: rest => (f, rest)
      | f, rest => (f, rest)
    let (bs, unused) := formatAll strict format (arguments.length + 1) arguments
    match strict, unused with
    | true, a :: _ =>
      { output := { bytes := bs }
        complaint := "printf: warning: ignoring excess arguments, starting with '" ++ a ++ "'\n"
        rest := t.input }
    | _, _ => say t bs

/-- Writes a line again and again. -/
def yes : Tool := withOptions "yes" (fun _ => false) fun t =>
  let line := if t.arguments = [] then "y" else " ".intercalate t.arguments
  { output := .forever (Utf8.encode (line ++ "\n")), rest := t.input }

/-- Writes the numbers from one to another. -/
def seq : Tool := withOptions "seq" (fun a => (a.toInt?).isSome) fun t =>
  let numbers := t.arguments.filterMap String.toInt?
  let count (first step last : Int) : Effect :=
    let n := if step = 0 then 0 else ((last - first) / step + 1).toNat
    say t ((List.range n).flatMap fun (i : Nat) =>
      Utf8.encode (toString (first + step * Int.ofNat i) ++ "\n"))
  match numbers with
  | [last] => count 1 1 last
  | [first, last] => count first 1 last
  | [first, step, last] => count first step last
  | _ => fail t "seq" "missing operand\nTry 'seq --help' for more information."

/-! ## Reading -/

/-- What stands in a file, with the devices that never end or are empty. -/
def file (t : Task) (path : String) : Except IoFault Stream :=
  if path = "-" then .ok t.input
  else if path = "/dev/zero" then .ok (.forever [0])
  else if path = "/dev/null" then .ok {}
  else (fun bs => { bytes := bs }) <$> t.storage.read path

/-- The name of a fault without its number. -/
def faultName (fault : IoFault) : String :=
  String.ofList (fault.message.toList.takeWhile (· ≠ '(')).dropLast

/-- The files that are named, one after another, or the input if none is. -/
def gather (name : String) (t : Task) : List String → Effect
  | [] => { output := t.input }
  | paths => paths.foldl (fun e path =>
      match file t path with
      | .ok s => { e with output := e.output.append s }
      | .error fault =>
        { e with
          complaint := e.complaint ++ name ++ ": " ++ (if path = "" then "''" else path) ++ ": "
            ++ faultName fault ++ "\n"
          status := 1 }) { rest := if paths.contains "-" then {} else t.input }

/-- Copies files to its output. -/
def cat : Tool := withOptions "cat" (fun a => a = "-u") fun t =>
  gather "cat" t (t.arguments.filter (· ≠ "-u"))

/-- A count with a letter for thousands. -/
def count? (s : String) : Option Nat :=
  let digits := s.toList.takeWhile Char.isDigit
  let factor := match String.ofList (s.toList.drop digits.length) with
    | "" => some 1
    | "k" | "K" => some 1024
    | "M" => some (1024 * 1024)
    | "b" => some 512
    | "kB" => some 1000
    | _ => none
  if digits.isEmpty then none else factor.map (decimal digits * ·)

/-- How much of a stream is meant: so many bytes, or so many lines. -/
inductive Extent where
  | bytes (n : Nat)
  | lines (n : Nat)

/-- The extent that options give, and the other arguments. -/
def extent : List String → Extent × List String
  | "-c" :: n :: rest => (.bytes ((count? n).getD 0), (extent rest).2)
  | "-n" :: n :: rest => (.lines ((count? n).getD 0), (extent rest).2)
  | [] => (.lines 10, [])
  | a :: rest =>
    let (found, others) := extent rest
    match a.toList with
    | '-' :: 'c' :: cs => (.bytes ((count? (String.ofList cs)).getD 0), others)
    | '-' :: 'n' :: cs => (.lines ((count? (String.ofList cs)).getD 0), others)
    | '-' :: c :: cs =>
      if c.isDigit then (.lines ((count? (String.ofList (c :: cs))).getD 0), others)
      else (found, a :: others)
    | _ => (found, a :: others)

/-- Whether an argument gives an extent. -/
def givesExtent (a : String) : Bool :=
  match a.toList with
  | '-' :: c :: _ => c = 'c' || c = 'n' || c.isDigit
  | _ => false

/-- The first part of files. -/
def head : Tool := withOptions "head" givesExtent fun t =>
  let (wanted, paths) := extent t.arguments
  let all := gather "head" t paths
  let bs := match wanted with
    | .bytes n => all.output.take n
    | .lines n => all.output.takeLines n
  let rest := if paths.isEmpty then t.input.drop bs.length else all.rest
  { all with output := { bytes := bs }, rest }

/-- The last part of files. -/
def tail : Tool := withOptions "tail" givesExtent fun t =>
  let (wanted, paths) := extent t.arguments
  let all := gather "tail" t paths
  let bs := all.output.bytes
  let skipped := match wanted with
    | .bytes n => bs.length - n
    | .lines n =>
      let unended := if bs.getLast?.any (· ≠ Stream.newline) then 1 else 0
      let lines := bs.countP (· = Stream.newline) + unended
      Stream.lineBytes (lines - n) bs
  { all with output := { bytes := bs.drop skipped } }

/-- Counts lines, words or bytes. -/
def wc : Tool := withOptions "wc" (fun a => a = "-c" || a = "-l") fun t =>
  let all := gather "wc" t (t.arguments.filter fun a => a ≠ "-c" ∧ a ≠ "-l")
  let bs := all.output.bytes
  let n := if t.arguments.contains "-l" then bs.countP (· = Stream.newline) else bs.length
  { all with output := { bytes := Utf8.encode (toString n ++ "\n") } }

/-- Copies blocks of a file. -/
def dd : Tool := fun t =>
  let value (key : String) : Option String :=
    (t.arguments.find? (·.startsWith key)).map fun a => String.ofList (a.toList.drop key.length)
  let block := ((value "bs=").bind count?).getD 512
  match file t ((value "if=").getD "-") with
  | .error _ => fail t "dd" ("failed to open '" ++ (value "if=").getD "" ++ "'")
  | .ok s =>
    match (value "count=").bind count? with
    | some n => { output := { bytes := s.take (block * n) }, rest := t.input }
    | none => { output := s, rest := t.input }

/-! ## Replacing characters -/

/-- The bytes from one to another. -/
def byteRange (first last : UInt8) : Bytes :=
  (List.range (last.toNat + 1 - first.toNat)).map fun i => (first.toNat + i).toUInt8

/-- The bytes of a set, with ranges written out. -/
def byteSet : Bytes → Bytes
  | a :: 45 :: b :: rest => byteRange a b ++ byteSet rest
  | a :: rest => a :: byteSet rest
  | [] => []

/-- The bytes that the name of a set stands for. -/
def setOf (text : String) : Bytes :=
  match text with
  | "[:upper:]" => byteRange 65 90
  | "[:lower:]" => byteRange 97 122
  | "[:digit:]" => byteRange 48 57
  | "[:space:]" => [9, 10, 11, 12, 13, 32]
  | text => byteSet (unescape false (text.length + 1) text.toList).1

/-- Replaces the bytes of one set by those of another, or deletes them. -/
def tr : Tool := withOptions "tr" (fun a => a = "-d") fun t =>
  match t.arguments with
  | ["-d", set] =>
    let gone := setOf set
    { output := t.input.flatMap fun b => if gone.contains b then [] else [b] }
  | [source, target] =>
    let targets := setOf target
    let last := targets.getLast?.getD 0
    let pairs := (setOf source).zipIdx.map fun (b, i) => (b, targets.getD i last)
    { output := t.input.flatMap fun b => [(pairs.lookup b).getD b] }
  | _ => fail t "tr" "missing operand\nTry 'tr --help' for more information."

/-! ## Tests -/

/-- What an operator with one side finds. -/
def unary (s : Storage) (op x : String) : Option Bool :=
  let node := s.node x
  let isFile := match node with
    | .ok (.file _) => true
    | _ => false
  let isDirectory := match node with
    | .ok .directory => true
    | _ => false
  match op with
  | "-n" => some (x ≠ "")
  | "-z" => some (x = "")
  | "-e" | "-r" | "-w" => some (isFile || isDirectory)
  | "-f" => some isFile
  | "-d" | "-x" => some isDirectory
  | "-s" => some (match s.read x with
    | .ok bs => !bs.isEmpty
    | .error _ => isDirectory)
  | "-t" => some false
  | _ => none

/-- What an operator with two sides finds. -/
def binary (op a b : String) : Option Bool :=
  let numbers (p : Int → Int → Bool) : Option Bool := do return p (← a.toInt?) (← b.toInt?)
  match op with
  | "=" | "==" => some (a = b)
  | "!=" => some (a ≠ b)
  | "-eq" => numbers (· == ·)
  | "-ne" => numbers (· != ·)
  | "-lt" => numbers (· < ·)
  | "-le" => numbers (· ≤ ·)
  | "-gt" => numbers (· > ·)
  | "-ge" => numbers (· ≥ ·)
  | _ => none

/-- What a test finds; there is nothing if it makes no sense. -/
def truth (s : Storage) : Nat → List String → Option Bool
  | 0, _ => none
  | _ + 1, [] => some false
  | _ + 1, [x] => some (x ≠ "")
  | fuel + 1, [a, b] =>
    if a = "!" then (truth s fuel [b]).map (!·) else unary s a b
  | fuel + 1, [a, op, b] =>
    match binary op a b with
    | some found => some found
    | none =>
      if op = "-a" then some (a ≠ "" && b ≠ "")
      else if op = "-o" then some (a ≠ "" || b ≠ "")
      else if a = "!" then (truth s fuel [op, b]).map (!·)
      else if a = "(" ∧ b = ")" then truth s fuel [op]
      else none
  | fuel + 1, args =>
    match args.findIdx? (· = "-o"), args.findIdx? (· = "-a"), args with
    | some i, _, _ => do
      return (← truth s fuel (args.take i)) || (← truth s fuel (args.drop (i + 1)))
    | none, some i, _ => do
      return (← truth s fuel (args.take i)) && (← truth s fuel (args.drop (i + 1)))
    | none, none, "!" :: rest => (truth s fuel rest).map (!·)
    | none, none, _ => none

/-- A test, whose status says what it has found. -/
def test : Tool := fun t =>
  match truth t.storage (t.arguments.length + 1) t.arguments with
  | some true => finish 0 t
  | some false => finish 1 t
  | none => finish 2 t

/-- A test in brackets. -/
def bracket : Tool := fun t =>
  if t.arguments.getLast? = some "]" then test { t with arguments := t.arguments.dropLast }
  else finish 2 t

/-! ## Names -/

/-- The programs that are known by name. -/
def all : List (String × Tool) := [
  ("echo", echo), ("printf", printf true), ("true", finish 0), ("false", finish 1),
  ("cat", cat), ("head", head), ("tail", tail), ("tr", tr), ("wc", wc), ("seq", seq),
  ("yes", yes), ("dd", dd), ("test", test), ("[", bracket)]

/-- The programs that shells have built in, where they differ. -/
def builtIn : List (String × Tool) := [
  ("echo", shellEcho), ("printf", printf false), (":", finish 0)]

end Tool

end Rehearsal

end PluginHost
