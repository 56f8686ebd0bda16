/-
  PluginHost.Toml.Reader

  TOML text read into a document.  Unlike JSON it is read as a whole: a text
  with any fault of form has no document.  The entries of the document stand in
  the order of the text, but a table that was implied by a longer header before
  it got its own stands where its own header does.
-/
import PluginHost.Toml.Scalar
import PluginHost.Toml.Table
import PluginHost.Schema

namespace PluginHost

namespace Toml

/-! ## Values -/

mutual

/-- A value.  `depth` counts the arrays and inline tables around it; the fuel
    bounds the characters left, two units for each. -/
def readValue : Nat → Nat → Reader Document
  | 0, _, _ => none
  | fuel + 1, depth, cs =>
    match cs with
    | '"' :: _ | '\'' :: _ => do
      let (s, cs) ← readText cs
      return (.text s, cs)
    | '[' :: cs =>
      if nestingLimit ≤ depth + 1 then none
      else do
        let (ds, cs) ← readItems fuel (depth + 1) cs
        return (.list ds, cs)
    | '\x7b' :: cs =>
      if nestingLimit ≤ depth + 1 then none
      else
        match skipBlanks cs with
        | '\x7d' :: cs => some (.table [], cs)
        | cs => do
          let (es, cs) ← readPairs fuel (depth + 1) [] cs
          return (Entries.toDocument es, cs)
    | cs => readScalar cs

/-- The items of an array up to its end, from one of them or the end on. -/
def readItems : Nat → Nat → Reader (List Document)
  | 0, _, _ => none
  | fuel + 1, depth, cs => do
    match ← skipLines (cs.length + 1) cs with
    | ']' :: cs => return ([], cs)
    | cs =>
      let (d, cs) ← readValue fuel depth cs
      match ← skipLines (cs.length + 1) cs with
      | ']' :: cs => return ([d], cs)
      | ',' :: cs =>
        let (ds, cs) ← readItems fuel depth cs
        return (d :: ds, cs)
      | _ => none

/-- The entries of an inline table up to its end, from one of them on, added to
    those before. -/
def readPairs : Nat → Nat → Entries → Reader Entries
  | 0, _, _, _ => none
  | fuel + 1, depth, es, cs => do
    let (key, cs) ← readKey cs
    match cs with
    | '=' :: cs =>
      let (d, cs) ← readValue fuel depth (skipBlanks cs)
      let es ← Entries.putValue key.name d key.path es
      match skipBlanks cs with
      | '\x7d' :: cs => return (es, cs)
      | ',' :: cs => readPairs fuel depth es cs
      | _ => none
    | _ => none

end

/-! ## Lines -/

/-- A document under way: the tables closed so far, and the one that key lines
    add to, with the key of its header and whether it is one of an array. -/
structure Build where
  root : Entries := []
  header : Option Key := none
  inArray : Bool := false
  current : Entries := []

/-- The entries of the table around the open one, with the open one in them. -/
def Build.closeIn (b : Build) (key : Key) (es : Entries) : Option Entries :=
  if b.inArray then
    match es.node? key.name with
    | none => some (es.put key.name (.tables [b.current]))
    | some (.tables elements) => some (es.set key.name (.tables (elements ++ [b.current])))
    | some _ => none
  else some (es.put key.name (.table .declared b.current))

/-- Puts the open table where its header says. -/
def Build.close (b : Build) : Option Entries :=
  match b.header with
  | none => some b.current
  | some key => Entries.changeAt (b.closeIn key) key.path b.root

/-- Opens the table of a header.  One that was only implied keeps what it
    holds; any other table or value of the name is in the way. -/
def Build.openTable (b : Build) (key : Key) : Option Build := do
  let root ← b.close
  let root ← Entries.changeAt some key.path root
  let parent ← Entries.lookAt key.path root
  match parent.node? key.name with
  | none => return ⟨root, some key, false, []⟩
  | some (.table .implied inner) =>
    let root ← Entries.changeAt (fun es => some (es.without key.name)) key.path root
    return ⟨root, some key, false, inner⟩
  | some _ => none

/-- Opens one more table of an array. -/
def Build.openElement (b : Build) (key : Key) : Option Build := do
  let root ← b.close
  return ⟨root, some key, true, []⟩

/-- The key of a header up to its closing bracket or brackets, and the rest of
    its line. -/
def readHeader (closing : List Char) (cs : List Char) : Option (Key × List Char) := do
  let (key, cs) ← readKey cs
  if closing.isPrefixOf cs then return (key, ← lineRest? (cs.drop closing.length)) else none

/-- A line that gives a key its value. -/
def readPair (cs : List Char) : Option ((Key × Document) × List Char) := do
  let (key, cs) ← readKey cs
  match cs with
  | '=' :: cs =>
    let (d, cs) ← readValue (2 * cs.length + 2) 0 (skipBlanks cs)
    return ((key, d), ← lineRest? cs)
  | _ => none

/-- The lines of a document.  The fuel bounds their number. -/
def readLines : Nat → Build → List Char → Option Entries
  | 0, _, _ => none
  | fuel + 1, b, cs =>
    match skipBlanks cs with
    | [] => b.close
    | '#' :: cs => do readLines fuel b (← lineEnd? (skipComment cs))
    | '[' :: '[' :: cs => do
      let (key, cs) ← readHeader [']', ']'] cs
      readLines fuel (← b.openElement key) cs
    | '[' :: cs => do
      let (key, cs) ← readHeader [']'] cs
      readLines fuel (← b.openTable key) cs
    | '\n' :: cs => readLines fuel b cs
    | '\r' :: '\n' :: cs => readLines fuel b cs
    | cs => do
      let ((key, d), cs) ← readPair cs
      readLines fuel { b with current := ← Entries.putValue key.name d key.path b.current } cs

/-- The document that a text holds.  A byte order mark at its front is no part
    of it. -/
def document? (s : String) : Option Document :=
  let cs := s.toList
  let cs := if cs.head? = some '\uFEFF' then cs.drop 1 else cs
  (readLines (cs.length + 1) {} cs).map Entries.toDocument

/-- A text read as the document of something.  Its form is checked first. -/
def readAs {α : Type} (read : Document → Read α) (s : String) : Read α :=
  match document? s with
  | some d => read d
  | none => .error .form

end Toml

end PluginHost
