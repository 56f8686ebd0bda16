/-
  PluginHost.Rehearsal.Script

  Scripts of a small shell, as they are read.
-/

namespace PluginHost

namespace Rehearsal

/-- What happens to a variable that has no value. -/
inductive Fallback where
  /-- Another text stands for it. -/
  | replace
  /-- Another text becomes its value. -/
  | assign
  /-- A text stands for every value instead. -/
  | ifSet
  deriving DecidableEq

mutual

/-- A part of a word.  What comes of a part that is not quoted is split at
    blanks. -/
inductive Part where
  | literal (text : List Char) (quoted : Bool)
  | parameter (name : String) (quoted : Bool)
  /-- A parameter with a word for the case that it has no value; an empty value
      may count as none. -/
  | fallback (name : String) (rule : Fallback) (emptyToo : Bool) (word : List Part) (quoted : Bool)
  /-- A parameter without the shortest, or the longest, part of a form at its
      beginning, or at its end. -/
  | trimmed (name : String) (front longest : Bool) (form : List Part) (quoted : Bool)
  /-- The length of a parameter. -/
  | lengthOf (name : String) (quoted : Bool)
  | arithmetic (expression : List Part) (quoted : Bool)
  /-- What a script writes. -/
  | output (script : List Command) (quoted : Bool)

/-- Where input comes from, or output goes to. -/
inductive Redirect where
  | duplicate (descriptor target : Nat)
  | write (descriptor : Nat) (word : List Part) (append : Bool)
  | read (word : List Part)

/-- A command. -/
inductive Command where
  | simple (settings : List (String × List Part)) (words : List (List Part))
  | redirected (command : Command) (redirects : List Redirect)
  | group (body : List Command)
  | subshell (body : List Command)
  /-- A loop for as long as a test succeeds, or fails. -/
  | loop (whileTrue : Bool) (test body : List Command)
  /-- A loop over words; over the parameters if no words are given. -/
  | forEach (name : String) (words : Option (List (List Part))) (body : List Command)
  | branch (arms : List (List Command × List Command)) (otherwise : List Command)
  | choose (word : List Part) (clauses : List (List (List Part) × List Command))
  | define (name : String) (body : Command)
  | pipeline (stages : List Command)
  | negated (command : Command)
  | both (first second : Command)
  | either (first second : Command)
  | background (command : Command)

end

/-- A word. -/
abbrev Word := List Part

/-- The text of a word that is one plain text without quotes. -/
def plainText? : Word → Option String
  | [.literal text false] => some (String.ofList text)
  | _ => none

end Rehearsal

end PluginHost
