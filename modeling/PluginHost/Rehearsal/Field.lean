/-
  PluginHost.Rehearsal.Field

  The words of a command after every replacement: where they are split, and
  which characters of them patterns see.
-/

namespace PluginHost

namespace Rehearsal

/-! ## Pieces and fields -/

/-- A piece of a word after its replacement. -/
inductive Piece where
  /-- Text that stays as it is; patterns do not see what is quoted. -/
  | solid (text : String) (quoted : Bool)
  /-- Text that is split at blanks. -/
  | loose (text : String)
  /-- Words of their own. -/
  | several (words : List String)

/-- A word being put together, of characters that may be quoted. -/
abbrev Field := List (Char × Bool)

/-- The characters of a text, marked. -/
def marked (quoted : Bool) (s : String) : Field :=
  s.toList.map (·, quoted)

/-- Whether text is split at a character. -/
def isBlank (c : Char) : Bool :=
  c = ' ' || c = '\t' || c = '\n'

/-- Adds text that is split at blanks. -/
def splitText (done : List Field) (current : Option Field) : List Char → List Field × Option Field
  | [] => (done, current)
  | c :: cs =>
    if isBlank c then splitText (done ++ current.toList) none cs
    else splitText done (some (current.getD [] ++ [(c, false)])) cs

/-- Adds a piece to the words before it and the word at hand. -/
def addPiece : List Field × Option Field → Piece → List Field × Option Field
  | (done, current), .solid text quoted =>
    (done, some (current.getD [] ++ marked quoted text))
  | (done, current), .loose text => splitText done current text.toList
  | (done, current), .several words =>
    match words with
    | [] => (done, current)
    | first :: rest =>
      let fields := (current.getD [] ++ marked true first) :: rest.map (marked true)
      (done ++ fields.dropLast, fields.getLast?)

/-- The words that pieces make. -/
def fieldsOf (pieces : List Piece) : List Field :=
  let onlyAll := pieces.any fun
    | .several [] => true
    | _ => false
  let solid := pieces.filter fun
    | .solid "" true => !onlyAll
    | _ => true
  let (done, current) := solid.foldl addPiece ([], none)
  done ++ current.toList

/-- The text of a word. -/
def fieldText (f : Field) : String :=
  String.ofList (f.map (·.1))

/-- The text that pieces make if nothing is split. -/
def pieceField (pieces : List Piece) : Field :=
  pieces.flatMap fun
    | .solid text quoted => marked quoted text
    | .loose text => marked false text
    | .several words => marked true (" ".intercalate words)

/-- The piece of a value. -/
def valuePiece (quoted : Bool) (value : String) : Piece :=
  if quoted then .solid value true else .loose value

/-! ## Patterns -/

/-- Whether a text has the form of a pattern: `*` stands for any text and `?`
    for any character.  Marked characters stand for themselves. -/
def hasForm : Nat → Field → List Char → Bool
  | 0, _, _ => false
  | _ + 1, [], cs => cs.isEmpty
  | fuel + 1, ('*', false) :: ps, cs =>
    hasForm fuel ps cs || match cs with
      | [] => false
      | _ :: cs => hasForm fuel (('*', false) :: ps) cs
  | fuel + 1, ('?', false) :: ps, _ :: cs => hasForm fuel ps cs
  | fuel + 1, (p, _) :: ps, c :: cs => p = c && hasForm fuel ps cs
  | _ + 1, _ :: _, [] => false

/-- A text without the shortest, or the longest, part of a form at its beginning,
    or at its end. -/
def withoutForm (front longest : Bool) (form : Field) (text : List Char) : List Char :=
  let cut (n : Nat) : List Char × List Char :=
    if front then (text.take n, text.drop n)
    else (text.drop (text.length - n), text.take (text.length - n))
  let sizes := List.range (text.length + 1)
  let found := (if longest then sizes.reverse else sizes).find? fun n =>
    hasForm (2 * (form.length + text.length) + 2) form (cut n).1
  (found.map fun n => (cut n).2).getD text

end Rehearsal

end PluginHost
