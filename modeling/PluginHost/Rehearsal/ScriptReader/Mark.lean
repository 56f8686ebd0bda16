/-
  PluginHost.Rehearsal.ScriptReader.Mark

  The marks of scripts: blanks, quotes, operators, and words that open or close
  a command.
-/
import PluginHost.Rehearsal.Script

namespace PluginHost

namespace Rehearsal

/-- Why a text is no script. -/
inductive ScriptFault where
  | unterminatedQuote
  | endOfText
  | unexpected (word : String)
  deriving DecidableEq

namespace ScriptReader

/-- What a reader returns. -/
abbrev Read := Except ScriptFault

/-! ## Characters -/

/-- The characters that end a word. -/
def isMeta (c : Char) : Bool :=
  c = ' ' || c = '\t' || c = '\n' || c = ';' || c = '&' || c = '|' || c = '<' || c = '>'
    || c = '(' || c = ')'

/-- The quote within which nothing is special. -/
def hardQuote : Char :=
  '\x27'

/-- The quote within which parameters are still replaced. -/
def softQuote : Char :=
  '\x22'

/-- The older mark around a script whose output is wanted. -/
def outputMark : Char :=
  '\x60'

/-- Whether a character may be in a name. -/
def isNameChar (c : Char) : Bool :=
  c.isAlphanum || c = '_'

/-- Whether a text is a name. -/
def isName (cs : List Char) : Bool :=
  !cs.isEmpty && cs.all isNameChar && !(cs.head?.any Char.isDigit)

/-- The names of parameters that are single signs. -/
def isSpecialName (c : Char) : Bool :=
  c = '@' || c = '*' || c = '#' || c = '?' || c = '$' || c = '!' || c = '-'

/-- Skips blanks, joined lines, and remarks. -/
def skipBlanks : List Char → List Char
  | ' ' :: cs => skipBlanks cs
  | '\t' :: cs => skipBlanks cs
  | '\\' :: '\n' :: cs => skipBlanks cs
  | '#' :: cs => cs.dropWhile (· ≠ '\n')
  | cs => cs

/-- Skips blanks and ends of lines. -/
def skipLines : Nat → List Char → List Char
  | 0, cs => cs
  | fuel + 1, cs =>
    match skipBlanks cs with
    | '\n' :: rest => skipLines fuel rest
    | rest => rest

/-- The characters up to a mark, which is taken away. -/
def upTo (mark : Char) : List Char → Read (List Char × List Char)
  | [] => .error .unterminatedQuote
  | c :: cs =>
    if c = mark then .ok ([], cs)
    else do
      let (text, rest) ← upTo mark cs
      return (c :: text, rest)

/-- The characters up to the parenthesis that closes two open ones, which is
    taken away with its neighbour. -/
def upToDoubleClose (depth : Nat) : List Char → Read (List Char × List Char)
  | [] => .error .endOfText
  | ')' :: ')' :: cs =>
    if depth = 0 then .ok ([], cs)
    else do
      let (text, rest) ← upToDoubleClose (depth - 1) (')' :: cs)
      return (')' :: text, rest)
  | c :: cs => do
    let depth := if c = '(' then depth + 1 else if c = ')' then depth - 1 else depth
    let (text, rest) ← upToDoubleClose depth cs
    return (c :: text, rest)

/-- The plain word that comes next, without taking it. -/
def peekWord (cs : List Char) : String :=
  String.ofList (cs.takeWhile fun c => !isMeta c)

/-- The rest after a plain word. -/
def afterWord (word : String) (cs : List Char) : List Char :=
  cs.drop word.length

/-- Takes a plain word that has to come next. -/
def expectWord (word : String) (cs : List Char) : Except ScriptFault (List Char) :=
  if peekWord cs = word then .ok (afterWord word cs)
  else if cs.isEmpty then .error .endOfText
  else .error (.unexpected (peekWord cs))

/-- The words that end a list of commands. -/
def closingWords : List String :=
  ["then", "elif", "else", "fi", "do", "done", "esac", "\x7d"]

/-- Whether a list of commands ends here. -/
def isClosing (cs : List Char) : Bool :=
  match cs with
  | [] => true
  | ')' :: _ => true
  | ';' :: ';' :: _ => true
  | cs => closingWords.contains (peekWord cs)

/-- The rule that follows the name in a bracketed parameter. -/
def fallbackRule : List Char → Option (Fallback × Bool × List Char)
  | ':' :: '-' :: cs => some (.replace, true, cs)
  | ':' :: '=' :: cs => some (.assign, true, cs)
  | ':' :: '+' :: cs => some (.ifSet, true, cs)
  | '-' :: cs => some (.replace, false, cs)
  | '=' :: cs => some (.assign, false, cs)
  | '+' :: cs => some (.ifSet, false, cs)
  | _ => none

/-- What is taken away from a bracketed parameter: whether from its front, and
    whether as much as possible. -/
def trimRule : List Char → Option (Bool × Bool × List Char)
  | '#' :: '#' :: cs => some (true, true, cs)
  | '#' :: cs => some (true, false, cs)
  | '%' :: '%' :: cs => some (false, true, cs)
  | '%' :: cs => some (false, false, cs)
  | _ => none

/-- A name in front of an assignment, if there is one, and what comes after it. -/
def assignmentName? (cs : List Char) : Option (String × List Char) :=
  let name := cs.takeWhile isNameChar
  match cs.drop name.length with
  | '=' :: rest => if isName name then some (String.ofList name, rest) else none
  | _ => none

/-- A mark of redirection: the descriptor, the mark, and what comes after it. -/
def redirectMark? (cs : List Char) : Option (Option Nat × String × List Char) :=
  let digits := cs.takeWhile Char.isDigit
  let number := if digits.isEmpty then none
    else some (digits.foldl (fun n c => 10 * n + (c.toNat - 48)) 0)
  match cs.drop digits.length with
  | '>' :: '>' :: rest => some (number, ">>", rest)
  | '>' :: '&' :: rest => some (number, ">&", rest)
  | '>' :: '|' :: rest => some (number, ">", rest)
  | '>' :: rest => some (number, ">", rest)
  | '<' :: '&' :: rest => some (number, "<&", rest)
  | '<' :: rest => some (number, "<", rest)
  | _ => none

/-- Adds a character to the first part if that is a text of the same kind. -/
def addChar (c : Char) (quoted : Bool) : Word → Word
  | .literal text q :: parts =>
    if q = quoted then .literal (c :: text) q :: parts
    else .literal [c] quoted :: .literal text q :: parts
  | parts => .literal [c] quoted :: parts

end ScriptReader

end Rehearsal

end PluginHost
