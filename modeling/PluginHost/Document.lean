/-
  PluginHost.Document

  A document as far as it could be read: a tree in the order of the text, in
  which the places where reading stopped are still marked.  A schema is checked
  against such a tree from left to right, so of a fault of form and a fault of
  content the one that stands first in the text is the one that counts.
-/
import PluginHost.Number.Shortest

namespace PluginHost

/-- A document in reading order.  A key that is `none`, an `illText` and an
    `overflow` are well formed but cannot be taken as a value: an escape in them
    names no character, or the number is too large. -/
inductive Document where
  | null
  | bool (b : Bool)
  | int (n : Int)
  | double (x : Double)
  | overflow
  | text (s : String)
  | illText
  /-- Items; a list that is not closed stopped being readable after them. -/
  | seq (items : List Document) (closed : Bool)
  /-- Entries in order, repeated keys included; a map that is not closed stopped
      being readable after them. -/
  | map (entries : List (Option String × Document)) (closed : Bool)
  /-- Nothing could be read here. -/
  | broken

namespace Document

/-- A whole list. -/
def list (items : List Document) : Document :=
  .seq items true

/-- A whole map. -/
def table (entries : List (String × Document)) : Document :=
  .map (entries.map fun (k, d) => (some k, d)) true

mutual

/-- Whether a document can be passed over: it was read to its end, whatever it
    holds. -/
def isWhole : Document → Bool
  | .seq items closed => allWhole items && closed
  | .map entries closed => allEntriesWhole entries && closed
  | .broken => false
  | _ => true

/-- Whether all items can be passed over. -/
def allWhole : List Document → Bool
  | [] => true
  | d :: ds => d.isWhole && allWhole ds

/-- Whether all entries can be passed over. -/
def allEntriesWhole : List (Option String × Document) → Bool
  | [] => true
  | (_, d) :: es => d.isWhole && allEntriesWhole es

end

end Document

end PluginHost
