/-
  PluginHost.Rehearsal.Shell.Execution

  Carrying out scripts.  Words are replaced from left to right, and commands are
  run one after another; fuel bounds how deep they call each other.
-/
import PluginHost.Rehearsal.Arithmetic
import PluginHost.Rehearsal.ScriptReader
import PluginHost.Rehearsal.Shell.Builtin

namespace PluginHost

namespace Rehearsal

namespace Shell

/-! ## Redirection -/

/-- Where a descriptor leads. -/
def sinkOf (sh : Shell) (descriptor : Nat) : Sink :=
  if descriptor = 2 then sh.err else sh.out

/-- The shell with a descriptor led elsewhere. -/
def redirect (sh : Shell) (descriptor : Nat) (sink : Sink) : Shell :=
  if descriptor = 2 then { sh with err := sink } else if descriptor = 1 then { sh with out := sink } else sh

/-- The shell without the changes that only held for a command. -/
def restore (sh before : Shell) : Shell :=
  { sh with input := before.input, out := before.out, err := before.err }

/-- A shell like another one, within which nothing but the stage lasts. -/
def nested (sh : Shell) : Shell :=
  { sh with jobs := [], traps := sh.inheritedTraps }

/-- The shell after what was done in a nested one. -/
def after (sh inner : Shell) : Shell :=
  { sh with
    stage := inner.stage
    status := inner.status
    control := if inner.control = .ended then .ended else sh.control }

/-- Files that output goes to while a command runs: the level, the path, and what
    is there before. -/
abbrev OpenFile := Nat × String × Bytes

/-- Writes to a file what was meant for it. -/
def closeFile (sh : Shell) : OpenFile → Shell
  | (level, path, before) =>
    let (s, stage) := sh.stage.collect level
    match stage.storage.writeFile path (before ++ s.bytes) with
    | .ok storage => { sh with stage := { stage with storage } }
    | .error _ => { sh with stage }

/-! ## Commands -/

mutual

/-- The pieces of a word. -/
def expand : Nat → Word → Shell → List Piece × Shell
  | 0, _, sh => ([], sh.exhaust)
  | _ + 1, [], sh => ([], sh)
  | fuel + 1, part :: parts, sh =>
    let (first, sh) := expandPart fuel part sh
    let (rest, sh) := expand fuel parts sh
    (first ++ rest, sh)

/-- The pieces of a part of a word. -/
def expandPart : Nat → Part → Shell → List Piece × Shell
  | 0, _, sh => ([], sh.exhaust)
  | _ + 1, .literal text quoted, sh => ([.solid (String.ofList text) quoted], sh)
  | _ + 1, .parameter "@" true, sh => ([.several sh.parameters], sh)
  | _ + 1, .parameter name quoted, sh => ([valuePiece quoted ((sh.value? name).getD "")], sh)
  | _ + 1, .lengthOf name quoted, sh =>
    ([valuePiece quoted (toString ((sh.value? name).getD "").length)], sh)
  | fuel + 1, .fallback name rule emptyToo word quoted, sh =>
    let value := (sh.value? name).filter fun v => !emptyToo || v ≠ ""
    match rule, value with
    | .replace, some v => ([valuePiece quoted v], sh)
    | .replace, none => expand fuel word sh
    | .ifSet, some _ => expand fuel word sh
    | .ifSet, none => ([valuePiece quoted ""], sh)
    | .assign, some v => ([valuePiece quoted v], sh)
    | .assign, none =>
      let (text, sh) := expandText fuel word sh
      ([valuePiece quoted text], sh.assign name text)
  | fuel + 1, .trimmed name front longest form quoted, sh =>
    let (pieces, sh) := expand fuel form sh
    let value := ((sh.value? name).getD "").toList
    ([valuePiece quoted (String.ofList (withoutForm front longest (pieceField pieces) value))], sh)
  | fuel + 1, .arithmetic expression quoted, sh =>
    let (text, sh) := expandText fuel expression sh
    match Arithmetic.eval text.toList sh.bound with
    | .ok (n, bound) => ([valuePiece quoted (toString n)], { sh with bound })
    | .error fault =>
      let what := match fault with
        | .divisionByZero => "division by zero"
        | .unreadable => "expecting primary"
      ([], { sh.fail ("arithmetic expression: " ++ what ++ ": \x22" ++ text ++ "\x22") 2 with
        control := .leaving })
  | fuel + 1, .output script quoted, sh =>
    let (s, sh) := capture fuel script sh
    let text := Utf8.decodeLossy (s.bytes.filter (· ≠ 0))
    let trimmed := String.ofList (text.toList.reverse.dropWhile (· = '\n')).reverse
    ([valuePiece quoted trimmed], sh)

/-- The text of a word that is not split. -/
def expandText : Nat → Word → Shell → String × Shell
  | 0, _, sh => ("", sh.exhaust)
  | fuel + 1, word, sh =>
    let (pieces, sh) := expand fuel word sh
    (fieldText (pieceField pieces), sh)

/-- The words that words stand for. -/
def expandWords : Nat → List Word → Shell → List String × Shell
  | 0, _, sh => ([], sh.exhaust)
  | _ + 1, [], sh => ([], sh)
  | fuel + 1, word :: words, sh =>
    let (pieces, sh) := expand fuel word sh
    let (rest, sh) := expandWords fuel words sh
    ((fieldsOf pieces).map fieldText ++ rest, sh)

/-- What a script writes, carried out in a nested shell. -/
def capture : Nat → List Command → Shell → Stream × Shell
  | 0, _, sh => ({}, sh.exhaust)
  | fuel + 1, script, sh =>
    let level := sh.stage.levels
    let inner := { sh.nested with
      out := .kept level, stage := { sh.stage with levels := level + 1 } }
    let inner := runNested fuel script inner
    let (s, stage) := inner.stage.collect level
    (s, sh.after { inner with stage })

/-- A script in a nested shell, up to its end. -/
def runNested : Nat → List Command → Shell → Shell
  | 0, _, sh => sh.exhaust
  | fuel + 1, script, sh =>
    let sh := finishJobs fuel (runAll fuel script sh)
    match sh.control, sh.traps.lookup "EXIT" with
    | .ended, _ => sh
    | _, none => sh
    | _, some text =>
      let status := sh.status
      let sh := runText fuel text { sh with control := .running, traps := [] }
      if sh.control = .running then sh.ending status else sh

/-- Carries out a text. -/
def runText : Nat → String → Shell → Shell
  | 0, _, sh => sh.exhaust
  | fuel + 1, text, sh =>
    match readScript text with
    | .ok script => runAll fuel script sh
    | .error fault =>
      let what := match fault with
        | .unterminatedQuote => "Syntax error: Unterminated quoted string"
        | .endOfText => "Syntax error: end of file unexpected"
        | .unexpected "Bad substitution" => "Bad substitution"
        | .unexpected word => "Syntax error: \x22" ++ word ++ "\x22 unexpected"
      { sh.fail what 2 with control := .leaving }

/-- Waits for what is done in the background. -/
def finishJobs : Nat → Shell → Shell
  | 0, sh => sh.exhaust
  | fuel + 1, sh =>
    match sh.jobs with
    | [] => sh
    | job :: jobs =>
      let sh := { sh with jobs }
      if sh.control = .ended then sh
      else
        let inner := runNested fuel [job] { sh.nested with control := .running }
        finishJobs fuel { sh.after inner with status := sh.status }

/-- Does what is to be done about signals. -/
def settle : Nat → Shell → Shell
  | 0, sh => sh.exhaust
  | fuel + 1, sh =>
    match sh.pending with
    | [] => sh
    | name :: pending =>
      let status := sh.status
      let sh := runText fuel ((sh.traps.lookup name).getD "") { sh with pending }
      if sh.isRunning then settle fuel (sh.ending status) else sh

/-- Commands one after another. -/
def runAll : Nat → List Command → Shell → Shell
  | 0, _, sh => sh.exhaust
  | _ + 1, [], sh => sh
  | fuel + 1, c :: cs, sh =>
    let sh := settle fuel (run fuel c sh)
    if sh.isRunning then runAll fuel cs sh else sh

/-- A loop. -/
def runLoop : Nat → Bool → List Command → List Command → Shell → Shell
  | 0, _, _, _, sh => sh.exhaust
  | fuel + 1, whileTrue, test, body, sh =>
    let before := sh.status
    let sh := (runAll fuel test (sh.guard true)).guard sh.guarded
    match sh.control with
    | .running =>
      if (sh.status = 0) ≠ whileTrue then sh.ending before
      else
        let sh := runAll fuel body sh
        let (again, sh) := sh.nextRound
        if again then runLoop fuel whileTrue test body sh else sh
    | _ => sh.nextRound.2

/-- A loop over words. -/
def runEach : Nat → String → List String → List Command → Shell → Shell
  | 0, _, _, _, sh => sh.exhaust
  | _ + 1, _, [], _, sh => sh
  | fuel + 1, name, word :: words, body, sh =>
    let (again, sh) := (runAll fuel body (sh.assign name word)).nextRound
    if again then runEach fuel name words body sh else sh

/-- The arms of a branch. -/
def runArms : Nat → List (List Command × List Command) → List Command → Shell → Shell
  | 0, _, _, sh => sh.exhaust
  | fuel + 1, [], otherwise, sh => runAll fuel otherwise (sh.ending 0)
  | fuel + 1, (test, body) :: arms, otherwise, sh =>
    let sh := (runAll fuel test (sh.guard true)).guard sh.guarded
    if !sh.isRunning then sh
    else if sh.status = 0 then runAll fuel body sh
    else runArms fuel arms otherwise sh

/-- The clauses of a choice. -/
def runClauses : Nat → String → List (List Word × List Command) → Shell → Shell
  | 0, _, _, sh => sh.exhaust
  | _ + 1, _, [], sh => sh.ending 0
  | fuel + 1, text, (patterns, body) :: clauses, sh =>
    let (found, sh) := hasAnyForm fuel text patterns sh
    if found then runAll fuel body (sh.ending 0) else runClauses fuel text clauses sh

/-- Whether a text has the form of one of some patterns. -/
def hasAnyForm : Nat → String → List Word → Shell → Bool × Shell
  | 0, _, _, sh => (false, sh.exhaust)
  | _ + 1, _, [], sh => (false, sh)
  | fuel + 1, text, pattern :: patterns, sh =>
    let (pieces, sh) := expand fuel pattern sh
    let field := pieceField pieces
    if hasForm (2 * (field.length + text.length) + 2) field text.toList then (true, sh)
    else hasAnyForm fuel text patterns sh

/-- Commands joined by pipes: each one reads what the one before it writes. -/
def runStages : Nat → List Command → Shell → Shell
  | 0, _, sh => sh.exhaust
  | _ + 1, [], sh => sh
  | fuel + 1, [c], sh => sh.after (runNested fuel [c] sh.nested)
  | fuel + 1, c :: cs, sh =>
    let (s, after) := capture fuel [c] sh
    let last := runStages fuel cs { after with input := s }
    { last with input := sh.input }

/-- Assignments, which are undone afterwards if a command follows them. -/
def assignAll : Nat → List (String × Word) → Shell → Shell
  | 0, _, sh => sh.exhaust
  | _ + 1, [], sh => sh
  | fuel + 1, (name, word) :: settings, sh =>
    let (text, sh) := expandText fuel word sh
    assignAll fuel settings (sh.assign name text)

/-- Redirections from left to right, with the files that they open. -/
def redirectAll : Nat → List Redirect → Shell → List OpenFile × Shell
  | 0, _, sh => ([], sh.exhaust)
  | _ + 1, [], sh => ([], sh)
  | fuel + 1, r :: rs, sh =>
    match r with
    | .duplicate descriptor target => redirectAll fuel rs (sh.redirect descriptor (sh.sinkOf target))
    | .read word =>
      let (path, sh) := expandText fuel word sh
      match Tool.file { arguments := [], input := sh.input, storage := sh.stage.storage } path with
      | .ok input => redirectAll fuel rs { sh with input }
      | .error _ =>
        ([], { sh.fail ("cannot open " ++ path ++ ": No such file") 2 with control := .returning })
    | .write descriptor word append =>
      let (path, sh) := expandText fuel word sh
      match path with
      | "/dev/null" => redirectAll fuel rs (sh.redirect descriptor .nowhere)
      | "/dev/stdout" => redirectAll fuel rs (sh.redirect descriptor sh.out)
      | "/dev/stderr" => redirectAll fuel rs (sh.redirect descriptor sh.err)
      | path =>
        let before := match append, sh.stage.storage.read path with
          | true, .ok bs => bs
          | _, _ => []
        let level := sh.stage.levels
        let sh := { sh with stage := { sh.stage with levels := level + 1 } }
        let (files, sh) := redirectAll fuel rs (sh.redirect descriptor (.kept level))
        ((level, path, before) :: files, sh)

/-- A command by its words. -/
def runWords : Nat → String → List String → Shell → Shell
  | 0, _, _, sh => sh.exhaust
  | fuel + 1, name, arguments, sh =>
    match sh.functions.lookup name with
    | some body =>
      let inner := run fuel body { sh with parameters := arguments }
      let control := if inner.control = .returning then .running else inner.control
      { inner with parameters := sh.parameters, control }
    | none =>
      match name with
      | "eval" => runText fuel (" ".intercalate arguments) (sh.ending 0)
      | "wait" => (finishJobs fuel sh).ending 0
      | "command" =>
        match arguments with
        | [] => sh.ending 0
        | first :: rest => runWords fuel first rest sh
      | "exec" =>
        match arguments with
        | [] => sh.ending 0
        | first :: rest =>
          let inner := runProgram fuel "exec: " first rest { sh with traps := sh.inheritedTraps }
          if inner.control = .ended then inner else { inner with control := .leaving, traps := [] }
      | name =>
        match sh.builtin? name arguments with
        | some sh => sh
        | none =>
          match Tool.builtIn.lookup name with
          | some tool => sh.runTool tool arguments
          | none => runProgram fuel "" name arguments sh

/-- A program by its name.  Complaints about it name who wanted it. -/
def runProgram : Nat → String → String → List String → Shell → Shell
  | 0, _, _, _, sh => sh.exhaust
  | fuel + 1, who, command, arguments, sh =>
    let name := programName command
    if name = "sleep" then sh.sleep arguments
    else if shellNames.contains name then sh.after (runShell fuel arguments sh.nested)
    else
      match Tool.all.lookup name with
      | some tool => sh.runTool tool arguments
      | none =>
        match startFault? sh.stage.storage command with
        | some .permissionDenied => sh.fail (who ++ command ++ ": Permission denied") 126
        | _ => sh.fail (who ++ command ++ ": not found") 127

/-- A shell by its arguments: a script, its name, and its parameters. -/
def runShell : Nat → List String → Shell → Shell
  | 0, _, sh => sh.exhaust
  | fuel + 1, arguments, sh =>
    match arguments with
    | "-c" :: text :: rest =>
      let name := rest.headD "sh"
      let inner := { sh with
        name, parameters := rest.drop 1, control := .running, functions := [], status := 0 }
      runWhole fuel text inner
    | "-c" :: [] => sh.complain "sh: 0: -c requires an argument\n" |>.ending 2
    | first :: rest =>
      match first.toList with
      | '-' :: '-' :: _ => sh.complain ("sh: 0: Illegal option --\n") |>.ending 2
      | _ =>
        match sh.stage.storage.readText first with
        | .ok text =>
          runWhole fuel text { sh with name := first, parameters := rest, control := .running }
        | .error _ => sh.complain ("sh: 0: cannot open " ++ first ++ ": No such file\n") |>.ending 2
    | [] => sh.ending 0

/-- A text from its beginning to the end of its shell. -/
def runWhole : Nat → String → Shell → Shell
  | 0, _, sh => sh.exhaust
  | fuel + 1, text, sh =>
    match readScript text with
    | .ok script => runNested fuel script sh
    | .error _ => runText fuel text sh

/-- A command. -/
def run : Nat → Command → Shell → Shell
  | 0, _, sh => sh.exhaust
  | fuel + 1, command, sh =>
    match command with
    | .simple settings [] => assignAll fuel settings (sh.ending 0)
    | .simple settings words => checked <|
      let (words, expanded) := expandWords fuel words sh
      if !expanded.isRunning then expanded
      else
        match words with
        | [] => assignAll fuel settings (expanded.ending 0)
        | name :: arguments =>
          let done := runWords fuel name arguments (assignAll fuel settings expanded)
          if settings.isEmpty then done else { done with bound := expanded.bound }
    | .redirected (.simple settings words) redirects =>
      let (files, inner) := redirectAll fuel redirects sh
      if inner.control = .returning then { inner.restore sh with control := .running }
      else
        let done := run fuel (.simple settings words) inner
        match words.map plainText? with
        | [some "exec"] => done
        | _ => files.foldl closeFile (done.restore sh)
    | .redirected c redirects =>
      let (files, inner) := redirectAll fuel redirects sh
      if inner.control = .returning then { inner.restore sh with control := .running }
      else files.foldl closeFile ((run fuel c inner).restore sh)
    | .group body => runAll fuel body sh
    | .subshell body => (sh.after (runNested fuel body sh.nested)).checked
    | .loop whileTrue test body => runLoop fuel whileTrue test body (sh.ending 0)
    | .forEach name words body =>
      let (words, sh) := match words with
        | some words => expandWords fuel words sh
        | none => (sh.parameters, sh)
      runEach fuel name words body (sh.ending 0)
    | .branch arms otherwise => runArms fuel arms otherwise sh
    | .choose word clauses =>
      let (text, sh) := expandText fuel word sh
      runClauses fuel text clauses sh
    | .define name body => { sh with functions := (name, body) :: sh.functions, status := 0 }
    | .pipeline stages => (runStages fuel stages sh).checked
    | .negated c =>
      let sh := (run fuel c (sh.guard true)).guard sh.guarded
      sh.ending (if sh.status = 0 then 1 else 0)
    | .both a b =>
      let sh := (run fuel a (sh.guard true)).guard sh.guarded
      if sh.isRunning ∧ sh.status = 0 then run fuel b sh else sh
    | .either a b =>
      let sh := (run fuel a (sh.guard true)).guard sh.guarded
      if sh.isRunning ∧ sh.status ≠ 0 then run fuel b sh else sh
    | .background c => { sh with jobs := sh.jobs ++ [c], status := 0 }

end

/-- A program that is started by its name. -/
def runMain (fuel : Nat) (name : String) (arguments : List String) (sh : Shell) : Shell :=
  if shellNames.contains name then runShell fuel arguments sh
  else runProgram fuel "" name arguments sh

end Shell

end Rehearsal

end PluginHost
