/-
  PluginHost.Json.Value

  JSON values as they are kept and written: the keys of an object in the order
  of their bytes, each once.
-/
import PluginHost.Schema
import PluginHost.Text.Hex

namespace PluginHost

namespace Json

/-- A JSON value.  The keys of an object are ascending. -/
inductive Value where
  | null
  | bool (b : Bool)
  | int (n : Int)
  | double (x : Double)
  | text (s : String)
  | array (items : List Value)
  | object (entries : List (String × Value))
  deriving Inhabited

namespace Value

/-- Ascending entries with one more, which replaces an entry of its key. -/
def insert {α : Type} (k : String) (v : α) : List (String × α) → List (String × α)
  | [] => [(k, v)]
  | (k', v') :: es =>
    if k < k' then (k, v) :: (k', v') :: es
    else if k = k' then (k, v) :: es
    else (k', v') :: insert k v es

/-- The object with the given entries, of a repeated key the last one. -/
def ofEntries (es : List (String × Value)) : Value :=
  .object (es.foldl (fun acc (k, v) => insert k v acc) [])

mutual

/-- The value of a document.  Lists and maps may be nested `room` deep; deeper
    ones, like numbers out of range, are a fault of form. -/
def ofDocument (room : Nat) : Document → Read Value
  | .null => .ok .null
  | .bool b => .ok (.bool b)
  | .int n => .ok (.int n)
  | .double x => .ok (.double x)
  | .text s => .ok (.text s)
  | .seq ds closed => do
    if room = 0 then throw .form
    let vs ← ofItems (room - 1) ds
    if closed then return .array vs else throw .form
  | .map es closed => do
    if room = 0 then throw .form
    let kvs ← ofPairs (room - 1) es
    if closed then return ofEntries kvs else throw .form
  | .overflow | .illText | .broken => .error .form

/-- The values of items, in order. -/
def ofItems (room : Nat) : List Document → Read (List Value)
  | [] => .ok []
  | d :: ds => do
    let v ← ofDocument room d
    let vs ← ofItems room ds
    return v :: vs

/-- The values of entries, in order. -/
def ofPairs (room : Nat) : List (Option String × Document) → Read (List (String × Value))
  | [] => .ok []
  | (none, _) :: _ => .error .form
  | (some k, d) :: es => do
    let v ← ofDocument room d
    let kvs ← ofPairs room es
    return (k, v) :: kvs

end

/-! ## Writing -/

/-- A character inside a text. -/
def escape (c : Char) : List Char :=
  if c = '"' then ['\\', '"']
  else if c = '\\' then ['\\', '\\']
  else if c = '\n' then ['\\', 'n']
  else if c = '\r' then ['\\', 'r']
  else if c = '\t' then ['\\', 't']
  else if c = '\x08' then ['\\', 'b']
  else if c = '\x0c' then ['\\', 'f']
  else if c.toNat < 0x20 then
    ['\\', 'u', '0', '0', Hex.digit (c.toNat / 16), Hex.digit (c.toNat % 16)]
  else [c]

/-- A text between quotes. -/
def quote (s : String) : List Char :=
  '"' :: s.toList.flatMap escape ++ ['"']

/-- Parts with a comma between any two. -/
def commaSeparated : List (List Char) → List Char
  | [] => []
  | [p] => p
  | p :: ps => p ++ ',' :: commaSeparated ps

/-- A number with a fraction; what is no number is written as `null`. -/
def doubleChars : Double → List Char
  | .finite negative m e => (Double.finite negative m e).toScientific.toList
  | _ => ['n', 'u', 'l', 'l']

mutual

/-- A value without any blanks. -/
def chars : Value → List Char
  | .null => ['n', 'u', 'l', 'l']
  | .bool true => ['t', 'r', 'u', 'e']
  | .bool false => ['f', 'a', 'l', 's', 'e']
  | .int n => (toString n).toList
  | .double x => doubleChars x
  | .text s => quote s
  | .array vs => '[' :: commaSeparated (itemChars vs) ++ [']']
  | .object es => '\x7b' :: commaSeparated (entryChars es) ++ ['\x7d']

/-- The items of an array, each written out. -/
def itemChars : List Value → List (List Char)
  | [] => []
  | v :: vs => v.chars :: itemChars vs

/-- The entries of an object, each written out. -/
def entryChars : List (String × Value) → List (List Char)
  | [] => []
  | (k, v) :: es => (quote k ++ ':' :: v.chars) :: entryChars es

end

/-- The compact text of a value. -/
def render (v : Value) : String :=
  String.ofList v.chars

end Value

end Json

end PluginHost
