/-
  PluginHost.Toml.Table

  The tables of a TOML document while it is read.  What a later line may still
  add to a table depends on how it came about, so every table remembers that.
-/
import PluginHost.Document

namespace PluginHost

namespace Toml

/-- How a table came about. -/
inductive Origin where
  /-- On the way to the table of a header; it may still get a header of its
      own. -/
  | implied
  /-- On the way of a dotted key; only dotted keys add to it. -/
  | dotted
  /-- By a header of its own. -/
  | declared
  deriving DecidableEq

/-- What stands under a key. -/
inductive Node where
  | value (d : Document)
  | table (origin : Origin) (entries : List (String × Node))
  /-- An array of tables, in the order of their headers. -/
  | tables (elements : List (List (String × Node)))

/-- The entries of a table in the order in which they were made. -/
abbrev Entries := List (String × Node)

namespace Entries

/-- What stands under a key. -/
def node? (es : Entries) (k : String) : Option Node :=
  List.lookup k es

/-- The entries with another node under a key that is there. -/
def set (es : Entries) (k : String) (n : Node) : Entries :=
  List.map (fun e => if e.1 = k then (k, n) else e) es

/-- The entries without a key. -/
def without (es : Entries) (k : String) : Entries :=
  List.filter (fun e => e.1 ≠ k) es

/-- The entries with a new key at the end. -/
def put (es : Entries) (k : String) (n : Node) : Entries :=
  List.append es [(k, n)]

/-- A list with its last element changed. -/
def changeLast {α : Type} (f : α → Option α) : List α → Option (List α)
  | [] => none
  | [a] => (f a).map ([·])
  | a :: as => (changeLast f as).map (a :: ·)

/-- A change to the table at the end of a path of headers.  Tables that are
    missing on the way are implied; of an array of tables the last one is
    meant. -/
def changeAt (f : Entries → Option Entries) : List String → Entries → Option Entries
  | [], es => f es
  | k :: ks, es =>
    match es.node? k with
    | none => do
      let inner ← changeAt f ks []
      return es.put k (.table .implied inner)
    | some (.value _) => none
    | some (.table origin inner) => do
      let inner ← changeAt f ks inner
      return es.set k (.table origin inner)
    | some (.tables elements) => do
      let elements ← changeLast (changeAt f ks) elements
      return es.set k (.tables elements)

/-- The table at the end of a path of headers that are all there. -/
def lookAt : List String → Entries → Option Entries
  | [], es => some es
  | k :: ks, es =>
    match es.node? k with
    | some (.table _ inner) => lookAt ks inner
    | some (.tables elements) => elements.getLast? >>= lookAt ks
    | _ => none

/-- A value under a dotted key.  The path goes through tables without a header;
    it has to end in one that dotted keys have made. -/
def putValue (name : String) (d : Document) : List String → Entries → Option Entries
  | [], es => if (es.node? name).isSome then none else some (es.put name (.value d))
  | k :: ks, es =>
    match es.node? k with
    | none => do
      let inner ← putValue name d ks []
      return es.put k (.table .dotted inner)
    | some (.value _) => none
    | some (.table origin inner) =>
      if origin = .declared ∨ (ks = [] ∧ origin ≠ .dotted) then none
      else do
        let inner ← putValue name d ks inner
        return es.set k (.table origin inner)
    | some (.tables elements) =>
      if ks = [] then none
      else do
        let elements ← changeLast (putValue name d ks) elements
        return es.set k (.tables elements)

mutual

/-- The document of a node. -/
def nodeDocument : Node → Document
  | .value d => d
  | .table _ es => .map (documents es) true
  | .tables ts => .seq (elementDocuments ts) true

/-- The documents of entries. -/
def documents : List (String × Node) → List (Option String × Document)
  | [] => []
  | (k, n) :: es => (some k, nodeDocument n) :: documents es

/-- The documents of the tables of an array. -/
def elementDocuments : List (List (String × Node)) → List Document
  | [] => []
  | es :: ts => .map (documents es) true :: elementDocuments ts

end

/-- The document of a table. -/
def toDocument (es : Entries) : Document :=
  .map (documents es) true

end Entries

end Toml

end PluginHost
