/-
  PluginHost.Rehearsal.Arithmetic

  Sums in scripts.  Variables may be read and set; one without a number counts
  as zero.
-/

namespace PluginHost

namespace Rehearsal

namespace Arithmetic

/-- The variables that a sum reads and sets. -/
abbrev Variables := List (String × String)

/-- What is known after a part of a sum: its value, the rest, and the
    variables. -/
abbrev Step := Int × List Char × Variables

/-- Why a text has no value as a sum. -/
inductive Fault where
  | divisionByZero
  | unreadable
  deriving DecidableEq

/-- The operators with two sides, those that bind least first. -/
def levels : List (List String) := [
  ["||"], ["&&"], ["|"], ["^"], ["&"], ["==", "!="], ["<=", ">=", "<", ">"], ["<<", ">>"],
  ["+", "-"], ["*", "/", "%"]]

/-- All operators with two sides. -/
def operators : List String :=
  levels.flatten

/-- The value of an operator with two sides, on words of 64 bits with a sign. -/
def apply (op : String) (a b : Int) : Except Fault Int :=
  let truth (p : Bool) : Except Fault Int := .ok (if p then 1 else 0)
  let word (x : BitVec 64) : Except Fault Int := .ok x.toInt
  let x : BitVec 64 := .ofInt 64 a
  let y : BitVec 64 := .ofInt 64 b
  match op with
  | "||" => truth (a ≠ 0 ∨ b ≠ 0)
  | "&&" => truth (a ≠ 0 ∧ b ≠ 0)
  | "|" => word (x ||| y)
  | "^" => word (x ^^^ y)
  | "&" => word (x &&& y)
  | "==" => truth (a = b)
  | "!=" => truth (a ≠ b)
  | "<=" => truth (a ≤ b)
  | ">=" => truth (b ≤ a)
  | "<" => truth (a < b)
  | ">" => truth (b < a)
  | "<<" => word (x <<< (y.toNat % 64))
  | ">>" => word (x.sshiftRight (y.toNat % 64))
  | "+" => word (x + y)
  | "-" => word (x - y)
  | "*" => word (x * y)
  | "/" => if b = 0 then .error .divisionByZero else .ok (Int.tdiv a b)
  | "%" => if b = 0 then .error .divisionByZero else .ok (Int.tmod a b)
  | _ => .error .unreadable

/-- The rest after blanks. -/
def trim (cs : List Char) : List Char :=
  cs.dropWhile fun c => c = ' ' ∨ c = '\t' ∨ c = '\n'

/-- The longest operator that comes next. -/
def nextOperator (cs : List Char) : Option String :=
  let found := operators.filter fun op => op.toList.isPrefixOf cs
  match found.filter (·.length = 2), found with
  | op :: _, _ => some op
  | [], op :: _ => some op
  | [], [] => none

/-- The number that digits stand for, which may be octal or hexadecimal. -/
def number (cs : List Char) : Int :=
  let value (base : Nat) (digits : List Char) : Nat :=
    digits.foldl (fun n c =>
      let d := if c.isDigit then c.toNat - 48 else c.toLower.toNat - 87
      base * n + d) 0
  match cs with
  | '0' :: x :: digits =>
    if x = 'x' ∨ x = 'X' then value 16 digits else value 8 (x :: digits)
  | digits => value 10 digits

/-- The number that a variable holds. -/
def held (bound : Variables) (name : String) : Int :=
  match trim ((bound.lookup name).getD "").toList with
  | '-' :: digits => - number (digits.takeWhile Char.isAlphanum)
  | digits => number (digits.takeWhile Char.isAlphanum)

mutual

/-- A sum of operators that bind at least as much as those of a level. -/
def level : Nat → List (List String) → List Char → Variables → Except Fault Step
  | 0, _, _, _ => .error .unreadable
  | fuel + 1, [], cs, vs => single fuel (trim cs) vs
  | fuel + 1, ops :: tighter, cs, vs => do
    let (a, rest, vs) ← level fuel tighter cs vs
    more fuel a (ops :: tighter) rest vs

/-- The operators of a level after a first value. -/
def more : Nat → Int → List (List String) → List Char → Variables → Except Fault Step
  | 0, _, _, _, _ => .error .unreadable
  | _ + 1, a, [], cs, vs => .ok (a, cs, vs)
  | fuel + 1, a, ops :: tighter, cs, vs =>
    match nextOperator (trim cs) with
    | some op =>
      if ops.contains op then do
        let (b, rest, vs) ← level fuel tighter ((trim cs).drop op.length) vs
        more fuel (← apply op a b) (ops :: tighter) rest vs
      else .ok (a, cs, vs)
    | none => .ok (a, cs, vs)

/-- A number, a variable, an assignment, a sign, or a sum in parentheses. -/
def single : Nat → List Char → Variables → Except Fault Step
  | 0, _, _ => .error .unreadable
  | fuel + 1, cs, vs =>
    match cs with
    | '(' :: cs => do
      let (a, rest, vs) ← level fuel levels cs vs
      match trim rest with
      | ')' :: rest => return (a, rest, vs)
      | _ => throw .unreadable
    | '-' :: cs => do
      let (a, rest, vs) ← single fuel (trim cs) vs
      return (-a, rest, vs)
    | '+' :: cs => single fuel (trim cs) vs
    | '!' :: cs => do
      let (a, rest, vs) ← single fuel (trim cs) vs
      return (if a = 0 then 1 else 0, rest, vs)
    | '~' :: cs => do
      let (a, rest, vs) ← single fuel (trim cs) vs
      return (-a - 1, rest, vs)
    | cs =>
      let text := cs.takeWhile fun c => c.isAlphanum || c = '_'
      let rest := cs.drop text.length
      match text with
      | [] => .error .unreadable
      | c :: _ =>
        if c.isDigit then .ok (number text, rest, vs)
        else
          let name := String.ofList text
          match trim rest with
          | '=' :: '=' :: _ => .ok (held vs name, rest, vs)
          | '=' :: rest => do
            let (a, rest, vs) ← level fuel levels rest vs
            return (a, rest, (name, toString a) :: vs)
          | op :: '=' :: rest =>
            if ['+', '-', '*', '/', '%'].contains op then do
              let (b, rest, vs) ← level fuel levels rest vs
              let a ← apply (String.singleton op) (held vs name) b
              return (a, rest, (name, toString a) :: vs)
            else .ok (held vs name, op :: '=' :: rest, vs)
          | _ => .ok (held vs name, rest, vs)

end

/-- The value of a sum, with the variables afterwards. -/
def eval (cs : List Char) (vs : Variables) : Except Fault (Int × Variables) := do
  let (a, rest, vs) ← level (16 * cs.length + 32) levels cs vs
  if trim rest = [] then return (a, vs) else throw .unreadable

end Arithmetic

end Rehearsal

end PluginHost
