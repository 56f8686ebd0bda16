/-
  PluginHost.Toml.Text

  Blanks, comments, texts and keys of TOML.  A reader takes the characters that
  belong to it and returns the rest, or `none` where the text is no TOML.
-/
import PluginHost.Document

namespace PluginHost

namespace Toml

/-- A reader: what was read and the text after it. -/
abbrev Reader (α : Type) := List Char → Option (α × List Char)

/-! ## Blanks, line ends and comments -/

/-- A space or a tab. -/
def isBlank (c : Char) : Bool :=
  c = ' ' || c = '\t'

/-- A text without the blanks at its front. -/
def skipBlanks : List Char → List Char
  | [] => []
  | c :: cs => if isBlank c then skipBlanks cs else c :: cs

/-- The text after a line end. -/
def newline? : List Char → Option (List Char)
  | '\n' :: cs => some cs
  | '\r' :: '\n' :: cs => some cs
  | _ => none

/-- The text after a line end, or the end of the text. -/
def lineEnd? : List Char → Option (List Char)
  | [] => some []
  | cs => newline? cs

/-- A character that may stand in a comment: no control but the tab. -/
def isCommentChar (c : Char) : Bool :=
  c = '\t' || (0x20 ≤ c.toNat && c.toNat ≠ 0x7F)

/-- A text without the comment that it continues. -/
def skipComment : List Char → List Char
  | [] => []
  | c :: cs => if isCommentChar c then skipComment cs else c :: cs

/-- What ends a line after a value or a header: blanks, a comment, a line
    end. -/
def lineRest? (cs : List Char) : Option (List Char) :=
  match skipBlanks cs with
  | '#' :: cs => lineEnd? (skipComment cs)
  | cs => lineEnd? cs

/-- The text after blanks, comments and line ends between the items of an array.
    A comment has to be ended by its line. -/
def skipLines : Nat → List Char → Option (List Char)
  | 0, _ => none
  | fuel + 1, cs =>
    match skipBlanks cs with
    | '#' :: cs => newline? (skipComment cs) >>= skipLines fuel
    | '\n' :: cs => skipLines fuel cs
    | '\r' :: cs => newline? ('\r' :: cs) >>= skipLines fuel
    | cs => some cs

/-! ## Texts -/

/-- The value of a digit in base sixteen. -/
def hexValue? (c : Char) : Option Nat :=
  if '0' ≤ c ∧ c ≤ '9' then some (c.toNat - 48)
  else if 'a' ≤ c ∧ c ≤ 'f' then some (c.toNat - 87)
  else if 'A' ≤ c ∧ c ≤ 'F' then some (c.toNat - 55)
  else none

/-- The character with the code point written in hexadecimal digits. -/
def codePoint? (digits : List Char) : Option Char := do
  let n ← digits.foldlM (fun n c => (n * 16 + ·) <$> hexValue? c) 0
  if h : n.isValidChar then some (Char.ofNatAux n h) else none

/-- The character of a one letter escape. -/
def shortEscape? (c : Char) : Option Char :=
  if c = '"' ∨ c = '\\' then some c
  else if c = 'b' then some '\x08'
  else if c = 't' then some '\t'
  else if c = 'n' then some '\n'
  else if c = 'f' then some '\x0c'
  else if c = 'r' then some '\r'
  else none

/-- A character that stands for itself in a text of either kind. -/
def isTextChar (c : Char) : Bool :=
  c = '\t' || (0x20 ≤ c.toNat && c.toNat ≠ 0x7F)

/-- The rest of a text on one line after its opening double quote. -/
def basicRest (taken : List Char) : Reader String
  | [] => none
  | '"' :: cs => some (String.ofList taken.reverse, cs)
  | '\\' :: 'u' :: a :: b :: c :: d :: cs => do
    basicRest ((← codePoint? [a, b, c, d]) :: taken) cs
  | '\\' :: 'U' :: a :: b :: c :: d :: e :: f :: g :: h :: cs => do
    basicRest ((← codePoint? [a, b, c, d, e, f, g, h]) :: taken) cs
  | '\\' :: c :: cs => do basicRest ((← shortEscape? c) :: taken) cs
  | c :: cs => if c ≠ '\\' ∧ isTextChar c then basicRest (c :: taken) cs else none

/-- The rest of a text on one line after its opening single quote. -/
def literalRest (taken : List Char) : Reader String
  | [] => none
  | '\'' :: cs => some (String.ofList taken.reverse, cs)
  | c :: cs => if isTextChar c then literalRest (c :: taken) cs else none

/-- What three closing quotes leave: up to two more belong to the text. -/
def closeLines (quote : Char) (taken : List Char) : Reader String
  | a :: b :: c :: cs =>
    if a = quote ∧ b = quote ∧ c = quote then none
    else if a = quote ∧ b = quote then some (String.ofList (b :: a :: taken).reverse, c :: cs)
    else if a = quote then some (String.ofList (a :: taken).reverse, b :: c :: cs)
    else some (String.ofList taken.reverse, a :: b :: c :: cs)
  | cs =>
    let more := cs.takeWhile (· = quote)
    some (String.ofList (more ++ taken).reverse, cs.drop more.length)

/-- Whether a line ends after blanks. -/
def endsLine (cs : List Char) : Bool :=
  (newline? (skipBlanks cs)).isSome

/-- The rest of a text over several lines after its opening double quotes.
    While `trimming`, after a backslash at the end of a line, blanks and line
    ends are passed over. -/
def basicLines (taken : List Char) (trimming : Bool) : Reader String
  | [] => none
  | '"' :: '"' :: '"' :: cs => closeLines '"' taken cs
  | '\\' :: 'u' :: a :: b :: c :: d :: cs => do
    basicLines ((← codePoint? [a, b, c, d]) :: taken) false cs
  | '\\' :: 'U' :: a :: b :: c :: d :: e :: f :: g :: h :: cs => do
    basicLines ((← codePoint? [a, b, c, d, e, f, g, h]) :: taken) false cs
  | '\\' :: c :: cs =>
    if endsLine (c :: cs) then basicLines taken true (c :: cs)
    else do basicLines ((← shortEscape? c) :: taken) false cs
  | '\r' :: '\n' :: cs => basicLines (if trimming then taken else '\n' :: taken) trimming cs
  | c :: cs =>
    if trimming && (isBlank c || c = '\n') then basicLines taken true cs
    else if c = '\n' then basicLines (c :: taken) false cs
    else if c ≠ '\\' ∧ isTextChar c then basicLines (c :: taken) false cs
    else none

/-- The rest of a text over several lines after its opening single quotes. -/
def literalLines (taken : List Char) : Reader String
  | [] => none
  | '\'' :: '\'' :: '\'' :: cs => closeLines '\'' taken cs
  | '\r' :: '\n' :: cs => literalLines ('\n' :: taken) cs
  | c :: cs => if c = '\n' ∨ isTextChar c then literalLines (c :: taken) cs else none

/-- A text without a line end at its front. -/
def dropNewline (cs : List Char) : List Char :=
  (newline? cs).getD cs

/-- A text of any of the four kinds. -/
def readText : Reader String
  | '"' :: '"' :: '"' :: cs => basicLines [] false (dropNewline cs)
  | '\'' :: '\'' :: '\'' :: cs => literalLines [] (dropNewline cs)
  | '"' :: cs => basicRest [] cs
  | '\'' :: cs => literalRest [] cs
  | _ => none

/-! ## Keys -/

/-- A character of a key without quotes. -/
def isKeyChar (c : Char) : Bool :=
  ('a' ≤ c && c ≤ 'z') || ('A' ≤ c && c ≤ 'Z') || ('0' ≤ c && c ≤ '9') || c = '-' || c = '_'

/-- One part of a key. -/
def readKeyPart : Reader String
  | '"' :: cs => basicRest [] cs
  | '\'' :: cs => literalRest [] cs
  | cs =>
    let part := cs.takeWhile isKeyChar
    if part = [] then none else some (String.ofList part, cs.drop part.length)

/-- The nesting that is refused, of values as of keys. -/
def nestingLimit : Nat := 80

/-- The parts of a key with points between them, blanks allowed around each. -/
def readKeyParts : Nat → Reader (List String)
  | 0, _ => none
  | fuel + 1, cs => do
    let (part, cs) ← readKeyPart (skipBlanks cs)
    match skipBlanks cs with
    | '.' :: cs =>
      let (parts, cs) ← readKeyParts fuel cs
      return (part :: parts, cs)
    | cs => return ([part], cs)

/-- A key: the path of tables it goes through, and its last part. -/
structure Key where
  path : List String
  name : String

/-- A key of fewer parts than the limit. -/
def readKey : Reader Key := fun cs => do
  let (parts, cs) ← readKeyParts nestingLimit cs
  if parts.length < nestingLimit then
    return (⟨parts.dropLast, parts.getLastD ""⟩, cs)
  else none

end Toml

end PluginHost
