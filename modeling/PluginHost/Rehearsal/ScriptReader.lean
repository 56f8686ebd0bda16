/-
  PluginHost.Rehearsal.ScriptReader

  Reading scripts.  Every reader gets the characters that are left and returns
  what it has read with the rest; fuel bounds how deep readers call each other.
-/
import PluginHost.Rehearsal.ScriptReader.Mark

namespace PluginHost

namespace Rehearsal

namespace ScriptReader

/-! ## Words and commands -/

mutual

/-- What follows a dollar sign. -/
def readDollar (quoted : Bool) : Nat → List Char → Read (Part × List Char)
  | 0, _ => .error .endOfText
  | fuel + 1, cs =>
    match cs with
    | '(' :: '(' :: cs => do
      let (text, rest) ← upToDoubleClose 0 cs
      let (word, _) ← readQuoted none fuel text
      return (.arithmetic word quoted, rest)
    | '(' :: cs => do
      let (script, rest) ← readList fuel cs
      match rest with
      | ')' :: rest => return (.output script quoted, rest)
      | _ => throw .endOfText
    | '\x7b' :: '#' :: cs =>
      let name := cs.takeWhile isNameChar
      match cs.drop name.length with
      | '\x7d' :: rest =>
        if name.isEmpty then .ok (.parameter "#" quoted, rest)
        else .ok (.lengthOf (String.ofList name) quoted, rest)
      | _ => .error (.unexpected "Bad substitution")
    | '\x7b' :: cs =>
      let plain := cs.takeWhile isNameChar
      let name := if plain.isEmpty then (cs.take 1).filter isSpecialName else plain
      match cs.drop name.length with
      | '\x7d' :: rest =>
        if name.isEmpty then .error (.unexpected "Bad substitution")
        else .ok (.parameter (String.ofList name) quoted, rest)
      | rest =>
        match fallbackRule rest, trimRule rest with
        | some (rule, emptyToo, rest), _ => do
          let (word, rest) ← readBraced quoted fuel rest
          return (.fallback (String.ofList name) rule emptyToo word quoted, rest)
        | none, some (front, longest, rest) => do
          let (form, rest) ← readBraced false fuel rest
          return (.trimmed (String.ofList name) front longest form quoted, rest)
        | none, none => .error (.unexpected "Bad substitution")
    | c :: cs =>
      if c.isDigit || isSpecialName c then .ok (.parameter (String.singleton c) quoted, cs)
      else if isNameChar c then
        let name := c :: cs.takeWhile isNameChar
        .ok (.parameter (String.ofList name) quoted, (c :: cs).drop name.length)
      else .ok (.literal ['$'] quoted, c :: cs)
    | [] => .ok (.literal ['$'] quoted, [])

/-- The rest of a word in brackets. -/
def readBraced (quoted : Bool) : Nat → List Char → Read (Word × List Char)
  | 0, _ => .error .endOfText
  | fuel + 1, cs =>
    match cs with
    | [] => .error .endOfText
    | '\x7d' :: rest => .ok ([], rest)
    | '\\' :: c :: cs => do
      let (word, rest) ← readBraced quoted fuel cs
      return (addChar c true word, rest)
    | '$' :: cs => do
      let (part, rest) ← readDollar quoted fuel cs
      let (word, rest) ← readBraced quoted fuel rest
      return (part :: word, rest)
    | c :: cs => do
      if c = hardQuote && !quoted then
        let (text, rest) ← upTo hardQuote cs
        let (word, rest) ← readBraced quoted fuel rest
        return (.literal text true :: word, rest)
      else if c = softQuote then
        let (inner, rest) ← readQuoted (some softQuote) fuel cs
        let (word, rest) ← readBraced quoted fuel rest
        return (inner ++ word, rest)
      else
        let (word, rest) ← readBraced quoted fuel cs
        return (addChar c quoted word, rest)

/-- The rest of a quoted text up to its closing mark, or up to the end if there
    is none. -/
def readQuoted (close : Option Char) : Nat → List Char → Read (Word × List Char)
  | 0, _ => .error .endOfText
  | fuel + 1, cs =>
    match cs with
    | [] => if close.isNone then .ok ([], []) else .error .unterminatedQuote
    | '\\' :: '\n' :: cs => readQuoted close fuel cs
    | '\\' :: c :: cs => do
      let (word, rest) ← readQuoted close fuel cs
      if c = '$' || c = softQuote || c = '\\' || c = outputMark then
        return (addChar c true word, rest)
      else return (addChar '\\' true (addChar c true word), rest)
    | '$' :: cs => do
      let (part, rest) ← readDollar true fuel cs
      let (word, rest) ← readQuoted close fuel rest
      return (part :: word, rest)
    | c :: cs => do
      if close = some c then return ([.literal [] true], cs)
      else if c = outputMark then
        let (text, rest) ← upTo outputMark cs
        let (script, _) ← readList fuel text
        let (word, rest) ← readQuoted close fuel rest
        return (.output script true :: word, rest)
      else
        let (word, rest) ← readQuoted close fuel cs
        return (addChar c true word, rest)

/-- A word. -/
def readWord : Nat → List Char → Read (Word × List Char)
  | 0, _ => .error .endOfText
  | fuel + 1, cs =>
    match cs with
    | [] => .ok ([], [])
    | '\\' :: '\n' :: cs => readWord fuel cs
    | '\\' :: c :: cs => do
      let (word, rest) ← readWord fuel cs
      return (addChar c true word, rest)
    | '$' :: cs => do
      let (part, rest) ← readDollar false fuel cs
      let (word, rest) ← readWord fuel rest
      return (part :: word, rest)
    | c :: cs => do
      if isMeta c then return ([], c :: cs)
      else if c = hardQuote then
        let (text, rest) ← upTo hardQuote cs
        let (word, rest) ← readWord fuel rest
        return (.literal text true :: word, rest)
      else if c = softQuote then
        let (inner, rest) ← readQuoted (some softQuote) fuel cs
        let (word, rest) ← readWord fuel rest
        return (inner ++ word, rest)
      else if c = outputMark then
        let (text, rest) ← upTo outputMark cs
        let (script, _) ← readList fuel text
        let (word, rest) ← readWord fuel rest
        return (.output script false :: word, rest)
      else
        let (word, rest) ← readWord fuel cs
        return (addChar c false word, rest)

/-- A redirection, if one comes next. -/
def readRedirect : Nat → List Char → Read (Option Redirect × List Char)
  | 0, cs => .ok (none, cs)
  | fuel + 1, cs =>
    match redirectMark? cs with
    | none => .ok (none, cs)
    | some (number, mark, rest) => do
      let (word, rest) ← readWord fuel (skipBlanks rest)
      match mark with
      | "<" => return (some (.read word), rest)
      | ">>" => return (some (.write (number.getD 1) word true), rest)
      | ">" => return (some (.write (number.getD 1) word false), rest)
      | mark =>
        match (plainText? word).bind String.toNat? with
        | some target =>
          let own := if mark = ">&" then 1 else 0
          return (some (.duplicate (number.getD own) target), rest)
        | none => throw (.unexpected "Bad fd number")

/-- Redirections after a command. -/
def readRedirects : Nat → List Char → Read (List Redirect × List Char)
  | 0, cs => .ok ([], cs)
  | fuel + 1, cs => do
    match ← readRedirect fuel (skipBlanks cs) with
    | (none, _) => return ([], cs)
    | (some r, rest) =>
      let (rs, rest) ← readRedirects fuel rest
      return (r :: rs, rest)

/-- The words of a simple command, with its assignments and redirections. -/
def readSimple (first : Bool) : Nat → List Char →
    Read ((List (String × Word) × List Word × List Redirect) × List Char)
  | 0, _ => .error .endOfText
  | fuel + 1, cs => do
    let cs := skipBlanks cs
    match ← readRedirect fuel cs with
    | (some r, rest) =>
      let ((settings, words, rs), rest) ← readSimple first fuel rest
      return ((settings, words, r :: rs), rest)
    | (none, _) =>
      match cs with
      | [] => return (([], [], []), [])
      | c :: _ =>
        if isMeta c then return (([], [], []), cs)
        else
          match if first then assignmentName? cs else none with
          | some (name, rest) =>
            let (value, rest) ← readWord fuel rest
            let ((settings, words, rs), rest) ← readSimple true fuel rest
            return (((name, value) :: settings, words, rs), rest)
          | none =>
            let (word, rest) ← readWord fuel cs
            let ((settings, words, rs), rest) ← readSimple false fuel rest
            return ((settings, word :: words, rs), rest)

/-- A command that is no list. -/
def readCommand : Nat → List Char → Read (Command × List Char)
  | 0, _ => .error .endOfText
  | fuel + 1, cs => do
    let cs := skipBlanks cs
    let wrap (x : Command × List Char) : Read (Command × List Char) := do
      let (redirects, rest) ← readRedirects fuel x.2
      return (if redirects.isEmpty then x.1 else .redirected x.1 redirects, rest)
    match cs with
    | '(' :: cs =>
      let (body, rest) ← readList fuel cs
      match rest with
      | ')' :: rest => wrap (.subshell body, rest)
      | _ => throw .endOfText
    | cs =>
      match peekWord cs with
      | "\x7b" =>
        let (body, rest) ← readList fuel (afterWord "\x7b" cs)
        wrap (.group body, ← expectWord "\x7d" rest)
      | "if" =>
        let ((arms, otherwise), rest) ← readArms fuel (afterWord "if" cs)
        wrap (.branch arms otherwise, rest)
      | "while" =>
        let (test, rest) ← readList fuel (afterWord "while" cs)
        let (body, rest) ← readList fuel (← expectWord "do" rest)
        wrap (.loop true test body, ← expectWord "done" rest)
      | "until" =>
        let (test, rest) ← readList fuel (afterWord "until" cs)
        let (body, rest) ← readList fuel (← expectWord "do" rest)
        wrap (.loop false test body, ← expectWord "done" rest)
      | "for" =>
        let rest := skipBlanks (afterWord "for" cs)
        let name := peekWord rest
        let rest := skipLines fuel (afterWord name rest)
        let (words, rest) ←
          if peekWord rest = "in" then do
            let ((_, words, _), rest) ← readSimple false fuel (afterWord "in" rest)
            pure (some words, rest)
          else pure (none, rest)
        let rest := match skipBlanks rest with
          | ';' :: rest => rest
          | rest => rest
        let (body, rest) ← readList fuel (← expectWord "do" (skipLines fuel rest))
        wrap (.forEach name words body, ← expectWord "done" rest)
      | "case" =>
        let (word, rest) ← readWord fuel (skipBlanks (afterWord "case" cs))
        let rest ← expectWord "in" (skipLines fuel rest)
        let (clauses, rest) ← readClauses fuel rest
        wrap (.choose word clauses, rest)
      | word =>
        match if isName word.toList then skipBlanks (afterWord word cs) else [] with
        | '(' :: rest =>
          match skipBlanks rest with
          | ')' :: rest =>
            let (body, rest) ← readCommand fuel (skipLines fuel rest)
            return (.define word body, rest)
          | _ => throw (.unexpected "(")
        | _ =>
          let ((settings, words, redirects), rest) ← readSimple true fuel cs
          if settings.isEmpty && words.isEmpty && redirects.isEmpty then
            if rest.isEmpty then throw .endOfText
            else throw (.unexpected (String.ofList (rest.take 1)))
          else
            let command := Command.simple settings words
            return (if redirects.isEmpty then command else .redirected command redirects, rest)

/-- The arms of a branch, after the word that opens the first one. -/
def readArms : Nat → List Char →
    Read ((List (List Command × List Command) × List Command) × List Char)
  | 0, _ => .error .endOfText
  | fuel + 1, cs => do
    let (test, rest) ← readList fuel cs
    let (body, rest) ← readList fuel (← expectWord "then" rest)
    match peekWord rest with
    | "elif" =>
      let ((arms, otherwise), rest) ← readArms fuel (afterWord "elif" rest)
      return (((test, body) :: arms, otherwise), rest)
    | "else" =>
      let (otherwise, rest) ← readList fuel (afterWord "else" rest)
      return (([(test, body)], otherwise), ← expectWord "fi" rest)
    | _ => return (([(test, body)], []), ← expectWord "fi" rest)

/-- The clauses of a choice, up to the word that closes it. -/
def readClauses : Nat → List Char → Read (List (List Word × List Command) × List Char)
  | 0, _ => .error .endOfText
  | fuel + 1, cs => do
    let cs := skipLines fuel cs
    if peekWord cs = "esac" then return ([], afterWord "esac" cs)
    else
      let cs := match cs with
        | '(' :: cs => cs
        | cs => cs
      let (patterns, rest) ← readPatterns fuel cs
      let (body, rest) ← readList fuel rest
      let rest := match rest with
        | ';' :: ';' :: rest => rest
        | rest => rest
      let (clauses, rest) ← readClauses fuel rest
      return ((patterns, body) :: clauses, rest)

/-- The patterns of a clause, with the parenthesis after them. -/
def readPatterns : Nat → List Char → Read (List Word × List Char)
  | 0, _ => .error .endOfText
  | fuel + 1, cs => do
    let (pattern, rest) ← readWord fuel (skipBlanks cs)
    match skipBlanks rest with
    | '|' :: rest =>
      let (patterns, rest) ← readPatterns fuel rest
      return (pattern :: patterns, rest)
    | ')' :: rest => return ([pattern], rest)
    | [] => throw .endOfText
    | c :: _ => throw (.unexpected (String.singleton c))

/-- Commands joined by pipes. -/
def readStages : Nat → List Char → Read (List Command × List Char)
  | 0, _ => .error .endOfText
  | fuel + 1, cs => do
    let (command, rest) ← readCommand fuel cs
    match skipBlanks rest with
    | '|' :: '|' :: rest => return ([command], '|' :: '|' :: rest)
    | '|' :: rest =>
      let (stages, rest) ← readStages fuel (skipLines fuel rest)
      return (command :: stages, rest)
    | rest => return ([command], rest)

/-- A pipeline, which may be negated. -/
def readPipeline : Nat → List Char → Read (Command × List Char)
  | 0, _ => .error .endOfText
  | fuel + 1, cs => do
    let cs := skipBlanks cs
    let negated := peekWord cs = "!"
    let (stages, rest) ← readStages fuel (if negated then afterWord "!" cs else cs)
    let command : Command := match stages with
      | [c] => c
      | stages => .pipeline stages
    return (if negated then .negated command else command, rest)

/-- Pipelines joined by conditions, after those that were read before. -/
def readChain (before : Command) : Nat → List Char → Read (Command × List Char)
  | 0, _ => .error .endOfText
  | fuel + 1, cs => do
    match skipBlanks cs with
    | '&' :: '&' :: rest =>
      let (next, rest) ← readPipeline fuel (skipLines fuel rest)
      readChain (.both before next) fuel rest
    | '|' :: '|' :: rest =>
      let (next, rest) ← readPipeline fuel (skipLines fuel rest)
      readChain (.either before next) fuel rest
    | rest => return (before, rest)

/-- Commands one after another. -/
def readList : Nat → List Char → Read (List Command × List Char)
  | 0, _ => .error .endOfText
  | fuel + 1, cs => do
    let cs := skipLines fuel cs
    if isClosing cs then return ([], cs)
    else
      let (first, rest) ← readPipeline fuel cs
      let (command, rest) ← readChain first fuel rest
      match skipBlanks rest with
      | ';' :: ';' :: rest => return ([command], ';' :: ';' :: rest)
      | ';' :: rest =>
        let (commands, rest) ← readList fuel rest
        return (command :: commands, rest)
      | '\n' :: rest =>
        let (commands, rest) ← readList fuel rest
        return (command :: commands, rest)
      | '&' :: rest =>
        let (commands, rest) ← readList fuel rest
        return (.background command :: commands, rest)
      | rest => return ([command], rest)

end

end ScriptReader

/-- The script that a text stands for. -/
def readScript (text : String) : Except ScriptFault (List Command) := do
  let cs := text.toList
  let (commands, rest) ← ScriptReader.readList (8 * cs.length + 64) cs
  if rest.isEmpty then return commands
  else
    let word := match rest with
      | ')' :: _ => ")"
      | ';' :: ';' :: _ => ";;"
      | rest => ScriptReader.peekWord rest
    throw (.unexpected word)

end Rehearsal

end PluginHost
