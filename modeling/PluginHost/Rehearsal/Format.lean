/-
  PluginHost.Rehearsal.Format

  Writing by a format: text with escapes and directives, each of which takes an
  argument.  A format is used again for as long as arguments are left.
-/
import PluginHost.Text.Utf8

namespace PluginHost

namespace Rehearsal

/-! ## Escapes -/

/-- Whether a character is an octal digit. -/
def isOctal (c : Char) : Bool :=
  '0' ≤ c && c ≤ '7'

/-- The byte that octal digits stand for. -/
def octalByte (cs : List Char) : UInt8 :=
  (cs.foldl (fun (n : Nat) (c : Char) => 8 * n + (c.toNat - 48)) 0).toUInt8

/-- The byte that an escape of one letter stands for. -/
def letterEscape? : Char → Option UInt8
  | 'a' => some 7
  | 'b' => some 8
  | 't' => some 9
  | 'n' => some 10
  | 'v' => some 11
  | 'f' => some 12
  | 'r' => some 13
  | '\\' => some 92
  | _ => none

/-- What an escape stands for, and how many characters it takes after its
    backslash.  Where `zeroed`, the digits of a byte may follow a zero. -/
def escape (zeroed : Bool) (cs : List Char) : Bytes × Nat :=
  match cs with
  | [] => ([92], 0)
  | c :: rest =>
    if zeroed ∧ c = '0' then
      let digits := (rest.take 3).takeWhile isOctal
      ([octalByte digits], 1 + digits.length)
    else if isOctal c then
      let digits := (cs.take 3).takeWhile isOctal
      ([octalByte digits], digits.length)
    else
      match letterEscape? c with
      | some b => ([b], 1)
      | none => (92 :: Utf8.encodeChar c, 1)

/-- A text with its escapes replaced, and whether it asks to stop there. -/
def unescape (zeroed : Bool) : Nat → List Char → Bytes × Bool
  | 0, _ => ([], false)
  | _ + 1, [] => ([], false)
  | fuel + 1, '\\' :: cs =>
    if cs.head? = some 'c' then ([], true)
    else
      let (bs, taken) := escape zeroed cs
      let (more, stop) := unescape zeroed fuel (cs.drop taken)
      (bs ++ more, stop)
  | fuel + 1, c :: cs =>
    let (more, stop) := unescape zeroed fuel cs
    (Utf8.encodeChar c ++ more, stop)

/-! ## Directives -/

/-- A directive: its signs, its width, its precision, and its letter. -/
structure Directive where
  flags : List Char := []
  width : Option Nat := none
  precision : Option Nat := none
  letter : Char

/-- The number that decimal digits stand for. -/
def decimal (cs : List Char) : Nat :=
  cs.foldl (fun (n : Nat) (c : Char) => 10 * n + (c.toNat - 48)) 0

/-- A directive after its percent sign, and what comes after it. -/
def readDirective (cs : List Char) : Option (Directive × List Char) :=
  let flags := cs.takeWhile fun c => c = '-' || c = '0' || c = '+' || c = ' ' || c = '#'
  let cs := cs.drop flags.length
  let width := cs.takeWhile Char.isDigit
  let cs := cs.drop width.length
  let (precision, cs) := match cs with
    | '.' :: cs =>
      let digits := cs.takeWhile Char.isDigit
      (some (decimal digits), cs.drop digits.length)
    | cs => (none, cs)
  match cs with
  | letter :: rest =>
    some ({ flags, width := if width.isEmpty then none else some (decimal width), precision,
            letter }, rest)
  | [] => none

/-- The number that an argument stands for; that of its first character if a
    quote stands in front of it. -/
def argumentNumber (s : String) : Int :=
  match s.toList with
  | '\\' :: _ => 0
  | c :: d :: _ =>
    if c = '\x27' ∨ c = '\x22' then d.toNat else (s.toInt?).getD 0
  | _ => (s.toInt?).getD 0

/-- The digits of a number to a base. -/
def digitsOf (base : Nat) (upper : Bool) (n : Nat) : List Char :=
  let digits := Nat.toDigits base n
  if upper then digits.map Char.toUpper else digits

namespace Directive

/-- Bytes with blanks, or with zeros after their sign, up to the width. -/
def pad (d : Directive) (numeric : Bool) (bs : Bytes) : Bytes :=
  let missing := d.width.getD 0 - bs.length
  if d.flags.contains '-' then bs ++ List.replicate missing 32
  else if numeric ∧ d.flags.contains '0' then
    match bs with
    | 45 :: digits => 45 :: (List.replicate missing 48 ++ digits)
    | bs => List.replicate missing 48 ++ bs
  else List.replicate missing 32 ++ bs

/-- A number by a directive. -/
def number (d : Directive) (n : Int) (digits : List Char) : Bytes :=
  let digits := List.replicate (d.precision.getD 0 - digits.length) '0' ++ digits
  let sign := if n < 0 then ['-'] else if d.flags.contains '+' then ['+']
    else if d.flags.contains ' ' then [' '] else []
  d.pad true (Utf8.encode (String.ofList (sign ++ digits)))

/-- What a directive writes for an argument, and whether that asks to stop; there
    is nothing if the directive is not known. -/
def write? (d : Directive) (argument : String) : Option (Bytes × Bool) :=
  let n := argumentNumber argument
  let cut (bs : Bytes) : Bytes := match d.precision with
    | some p => bs.take p
    | none => bs
  match d.letter with
  | 's' => some (d.pad false (cut (Utf8.encode argument)), false)
  | 'b' =>
    let (bs, stop) := unescape true (argument.length + 1) argument.toList
    some (d.pad false (cut bs), stop)
  | 'c' => some (d.pad false ((Utf8.encode argument).take 1), false)
  | 'd' | 'i' => some (d.number n (digitsOf 10 false n.natAbs), false)
  | 'u' => some (d.number 0 (digitsOf 10 false n.toNat), false)
  | 'o' => some (d.number 0 (digitsOf 8 false n.toNat), false)
  | 'x' => some (d.number 0 (digitsOf 16 false n.toNat), false)
  | 'X' => some (d.number 0 (digitsOf 16 true n.toNat), false)
  | _ => none

end Directive

/-- What a format writes once: the bytes, the arguments that are left, and whether
    to stop.  A format may ask to stop by an escape if `stoppable`. -/
def formatOnce (stoppable : Bool) : Nat → List Char → List String → Bytes × List String × Bool
  | 0, _, args => ([], args, true)
  | _ + 1, [], args => ([], args, false)
  | fuel + 1, '%' :: '%' :: cs, args =>
    let (bs, args, stop) := formatOnce stoppable fuel cs args
    (37 :: bs, args, stop)
  | fuel + 1, '%' :: cs, args =>
    match readDirective cs with
    | none => ([37], args, true)
    | some (d, rest) =>
      match d.write? (args.headD "") with
      | none => ([], args, true)
      | some (bs, true) => (bs, args.drop 1, true)
      | some (bs, false) =>
        let (more, args, stop) := formatOnce stoppable fuel rest (args.drop 1)
        (bs ++ more, args, stop)
  | fuel + 1, '\\' :: cs, args =>
    if stoppable ∧ cs.head? = some 'c' then ([], args, true)
    else
      let (bs, taken) := escape false cs
      let (more, args, stop) := formatOnce stoppable fuel (cs.drop taken) args
      (bs ++ more, args, stop)
  | fuel + 1, c :: cs, args =>
    let (more, args, stop) := formatOnce stoppable fuel cs args
    (Utf8.encodeChar c ++ more, args, stop)

/-- What a format writes for arguments, and those that it cannot use. -/
def formatAll (stoppable : Bool) (format : String) : Nat → List String → Bytes × List String
  | 0, args => ([], args)
  | fuel + 1, args =>
    let (bs, rest, stop) := formatOnce stoppable (format.length + 1) format.toList args
    if stop then (bs, [])
    else if rest.isEmpty ∨ rest.length = args.length then (bs, rest)
    else
      let (more, rest) := formatAll stoppable format fuel rest
      (bs ++ more, rest)

end Rehearsal

end PluginHost
