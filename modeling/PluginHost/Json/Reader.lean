/-
  PluginHost.Json.Reader

  JSON text read into a document.  Reading never fails: where the text stops
  being JSON the document is marked, and what stands before that place is kept.
-/
import PluginHost.Json.Number
import PluginHost.Schema
import PluginHost.Text.Utf8

namespace PluginHost

namespace Json

namespace Reader

/-- The blanks of JSON. -/
def isBlank (c : Char) : Bool :=
  c = ' ' || c = '\n' || c = '\t' || c = '\r'

/-- A text without the blanks at its front. -/
def skipBlanks : List Char → List Char
  | [] => []
  | c :: cs => if isBlank c then skipBlanks cs else c :: cs

/-! ## Texts -/

/-- The value of a digit in base sixteen. -/
def hexValue? (c : Char) : Option Nat :=
  if '0' ≤ c ∧ c ≤ '9' then some (c.toNat - 48)
  else if 'a' ≤ c ∧ c ≤ 'f' then some (c.toNat - 87)
  else if 'A' ≤ c ∧ c ≤ 'F' then some (c.toNat - 55)
  else none

/-- The code unit of four hexadecimal digits. -/
def codeUnit? (a b c d : Char) : Option Nat := do
  return (((← hexValue? a) * 16 + (← hexValue? b)) * 16 + (← hexValue? c)) * 16 + (← hexValue? d)

/-- The character of a one letter escape. -/
def shortEscape? (c : Char) : Option Char :=
  if c = '"' ∨ c = '\\' ∨ c = '/' then some c
  else if c = 'b' then some '\x08'
  else if c = 'f' then some '\x0c'
  else if c = 'n' then some '\n'
  else if c = 'r' then some '\r'
  else if c = 't' then some '\t'
  else none

/-- A text under way: its characters with the last one first, the first half of
    a pair of code units if the second half must come next, and whether a half
    was left without the other. -/
structure TextDraft where
  chars : List Char := []
  half : Option Nat := none
  ill : Bool := false

/-- A character more. -/
def TextDraft.push (t : TextDraft) (c : Char) : TextDraft :=
  ⟨c :: t.chars, none, t.ill || t.half.isSome⟩

/-- A code unit more. -/
def TextDraft.pushUnit (t : TextDraft) (u : Nat) : TextDraft :=
  match t.half with
  | some h =>
    if 0xDC00 ≤ u ∧ u < 0xE000 then
      ⟨Char.ofNat (0x10000 + (h - 0xD800) * 1024 + (u - 0xDC00)) :: t.chars, none, t.ill⟩
    else ⟨t.chars, none, true⟩
  | none =>
    if 0xD800 ≤ u ∧ u < 0xDC00 then ⟨t.chars, some u, t.ill⟩
    else if 0xDC00 ≤ u ∧ u < 0xE000 then ⟨t.chars, none, true⟩
    else ⟨Char.ofNat u :: t.chars, none, t.ill⟩

/-- The text, or `none` if an escape in it names no character. -/
def TextDraft.finish (t : TextDraft) : Option String :=
  if t.ill || t.half.isSome then none else some (String.ofList t.chars.reverse)

/-- The rest of a text after its opening quote, and what follows it; `none` if
    it is not closed or holds a bad escape or a control character. -/
def readText (t : TextDraft) : List Char → Option (Option String × List Char)
  | [] => none
  | '\\' :: 'u' :: a :: b :: c :: d :: cs =>
    match codeUnit? a b c d with
    | some u => readText (t.pushUnit u) cs
    | none => none
  | '\\' :: c :: cs =>
    match shortEscape? c with
    | some c => readText (t.push c) cs
    | none => none
  | c :: cs =>
    if c = '"' then some (t.finish, cs)
    else if c = '\\' ∨ c.toNat < 0x20 then none
    else readText (t.push c) cs

/-! ## Values -/

/-- What was read, and the text after it if reading can go on. -/
abbrev Step (α : Type) := α × Option (List Char)

/-- A word such as `null`, after its first letter. -/
def readWord (word : List Char) (d : Document) (cs : List Char) : Step Document :=
  if word.isPrefixOf cs then (d, some (cs.drop word.length)) else (.broken, none)

/-- A number with its sign taken. -/
def readNumber (negative : Bool) (cs : List Char) : Step Document :=
  match Number.readWritten cs with
  | some (w, rest) => (w.toDocument negative, some rest)
  | none => (.broken, none)

mutual

/-- A value that begins with the first character.  A level of nesting uses two
    units of fuel and at least one character. -/
def readValue : Nat → List Char → Step Document
  | 0, _ | _, [] => (.broken, none)
  | fuel + 1, c :: cs =>
    if c = '"' then
      match readText {} cs with
      | some (some s, rest) => (.text s, some rest)
      | some (none, rest) => (.illText, some rest)
      | none => (.broken, none)
    else if c = '[' then
      match skipBlanks cs with
      | ']' :: rest => (.seq [] true, some rest)
      | cs =>
        let (ds, closed, rest) := readItems fuel cs
        (.seq ds closed, rest)
    else if c = '\x7b' then
      match skipBlanks cs with
      | '\x7d' :: rest => (.map [] true, some rest)
      | cs =>
        let (es, closed, rest) := readEntries fuel cs
        (.map es closed, rest)
    else if c = 'n' then readWord ['u', 'l', 'l'] .null cs
    else if c = 't' then readWord ['r', 'u', 'e'] (.bool true) cs
    else if c = 'f' then readWord ['a', 'l', 's', 'e'] (.bool false) cs
    else if c = '-' then readNumber true cs
    else readNumber false (c :: cs)

/-- The items of a list from one of them on, whether the list is closed, and the
    text after it. -/
def readItems : Nat → List Char → List Document × Bool × Option (List Char)
  | 0, _ => ([], false, none)
  | fuel + 1, cs =>
    match readValue fuel cs with
    | (d, none) => ([d], false, none)
    | (d, some rest) =>
      match skipBlanks rest with
      | ']' :: rest => ([d], true, some rest)
      | ',' :: rest =>
        match skipBlanks rest with
        | ']' :: _ => ([d], false, none)
        | rest =>
          let (ds, closed, rest) := readItems fuel rest
          (d :: ds, closed, rest)
      | _ => ([d], false, none)

/-- The entries of a map from one of them on, whether the map is closed, and the
    text after it. -/
def readEntries : Nat → List Char → List (Option String × Document) × Bool × Option (List Char)
  | 0, _ => ([], false, none)
  | fuel + 1, cs =>
    match cs with
    | '"' :: cs =>
      match readText {} cs with
      | none => ([], false, none)
      | some (k, rest) =>
        match skipBlanks rest with
        | ':' :: rest =>
          match readValue fuel (skipBlanks rest) with
          | (d, none) => ([(k, d)], false, none)
          | (d, some rest) =>
            match skipBlanks rest with
            | '\x7d' :: rest => ([(k, d)], true, some rest)
            | ',' :: rest =>
              let (es, closed, rest) := readEntries fuel (skipBlanks rest)
              ((k, d) :: es, closed, rest)
            | _ => ([(k, d)], false, none)
        | _ => ([(k, .broken)], false, none)
    | _ => ([], false, none)

end

end Reader

/-- The document of a text. -/
structure Draft where
  document : Document
  /-- Whether nothing but blanks follows it. -/
  alone : Bool

/-- The document that a text holds. -/
def draft (s : String) : Draft :=
  let cs := s.toList
  let (d, rest) := Reader.readValue (2 * cs.length + 2) (Reader.skipBlanks cs)
  ⟨d, (rest.map fun r => (Reader.skipBlanks r).isEmpty).getD false⟩

/-- The text of bytes.  A part that is no character becomes an escape that names
    no character: it can be passed over, but not be taken as a value. -/
def textOfBytes (bs : Bytes) : String :=
  String.ofList ((Utf8.parts bs).flatMap fun
    | some c => [c]
    | none => ['\\', 'u', 'd', '8', '0', '0'])

/-- The document at the front of a text read as something.  What follows it does
    not matter. -/
def readFront {α : Type} (read : Document → Read α) (s : String) : Read α :=
  read (draft s).document

/-- A text read as the document of something.  What follows the document is
    looked at last. -/
def readAs {α : Type} (read : Document → Read α) (s : String) : Read α := do
  let d := draft s
  let a ← read d.document
  if d.alone then return a else throw .form

end Json

end PluginHost
