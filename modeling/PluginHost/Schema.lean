/-
  PluginHost.Schema

  Checking a document against the shape that is expected of it.  The answer to
  a document that does not fit is its first problem in reading order: a fault of
  form, or a mismatch with its text.  Records are described by their fields once
  (`Record`) and read from a map in any order, or from a list in the order of
  declaration.
-/
import PluginHost.Document
import PluginHost.Text.Quoted

namespace PluginHost

/-! ## Mismatches -/

/-- What a document holds in place of what was expected. -/
inductive Found where
  | bool (b : Bool)
  | int (n : Int)
  | double (x : Double)
  | text (s : String)
  | seq
  | map
  | null

/-- A value as a message names it. -/
def Found.describe : Found → String
  | .bool true => "boolean \x60true\x60"
  | .bool false => "boolean \x60false\x60"
  | .int n => "integer \x60" ++ toString n ++ "\x60"
  | .double x => "floating point \x60" ++ x.toPlain ++ "\x60"
  | .text s => "string " ++ Quoted.text s
  | .seq => "sequence"
  | .map => "map"
  | .null => "null"

/-- How a readable document departs from what was expected. -/
inductive Mismatch where
  | missingField (name : String)
  | duplicateField (name : String)
  | invalidType (found : Found) (expected : String)
  | invalidValue (found : Found) (expected : String)
  | invalidLength (length : Nat) (expected : String)

/-- The text of a mismatch. -/
def Mismatch.message : Mismatch → String
  | .missingField name => "missing field \x60" ++ name ++ "\x60"
  | .duplicateField name => "duplicate field \x60" ++ name ++ "\x60"
  | .invalidType found expected => "invalid type: " ++ found.describe ++ ", expected " ++ expected
  | .invalidValue found expected => "invalid value: " ++ found.describe ++ ", expected " ++ expected
  | .invalidLength n expected => "invalid length " ++ toString n ++ ", expected " ++ expected

/-- The first problem of a document. -/
inductive Problem where
  /-- It is not written as the format demands. -/
  | form
  /-- It does not hold what was expected. -/
  | content (mismatch : Mismatch)

/-- What reading a document yields. -/
abbrev Read (α : Type) := Except Problem α

namespace Schema

/-! ## Plain values -/

/-- The problem of a document that stands where something else was expected. -/
def unexpected (expected : String) (d : Document) : Problem :=
  let mismatch (found : Found) : Problem := .content (.invalidType found expected)
  match d with
  | .null => mismatch .null
  | .bool b => mismatch (.bool b)
  | .int n => mismatch (.int n)
  | .double x => mismatch (.double x)
  | .text s => mismatch (.text s)
  | .seq .. => mismatch .seq
  | .map .. => mismatch .map
  | .overflow | .illText | .broken => .form

/-- A text, under the name that messages give it. -/
def textAs (expected : String) : Document → Read String
  | .text s => .ok s
  | d => .error (unexpected expected d)

/-- A text. -/
def text : Document → Read String :=
  textAs "a string"

/-- The path of a file. -/
def path : Document → Read String :=
  textAs "path string"

/-- A truth value. -/
def bool : Document → Read Bool
  | .bool b => .ok b
  | d => .error (unexpected "a boolean" d)

/-- A natural number below a bound. -/
def natBelow (bound : Nat) (expected : String) : Document → Read Nat
  | .int n =>
    if 0 ≤ n ∧ n < bound then .ok n.toNat
    else .error (.content (.invalidValue (.int n) expected))
  | d => .error (unexpected expected d)

/-- A number of 64 bits without a sign. -/
def word64 (d : Document) : Read UInt64 :=
  UInt64.ofNat <$> natBelow UInt64.size "u64" d

/-- A number of 16 bits without a sign. -/
def word16 (d : Document) : Read UInt16 :=
  UInt16.ofNat <$> natBelow UInt16.size "u16" d

/-- Anything at all, as long as it can be read to its end. -/
def skip (d : Document) : Read Unit :=
  if d.isWhole then .ok () else .error .form

/-- A value that may be absent, written as `null`. -/
def option {α : Type} (read : Document → Read α) : Document → Read (Option α)
  | .null => .ok none
  | d => some <$> read d

/-! ## Lists and maps -/

/-- The items of a list, in order. -/
def items {α : Type} (read : Document → Read α) : List Document → Read (List α)
  | [] => .ok []
  | d :: ds => do
    let a ← read d
    let as ← items read ds
    return a :: as

/-- A list. -/
def list {α : Type} (read : Document → Read α) : Document → Read (List α)
  | .seq ds closed => do
    let as ← items read ds
    if closed then return as else throw .form
  | d => .error (unexpected "a sequence" d)

/-- The entries of a map, in order. -/
def entries {α : Type} (read : Document → Read α) :
    List (Option String × Document) → Read (List (String × α))
  | [] => .ok []
  | (none, _) :: _ => .error .form
  | (some k, d) :: es => do
    let a ← read d
    let as ← entries read es
    return (k, a) :: as

/-- A map with keys of its own. -/
def map {α : Type} (read : Document → Read α) : Document → Read (List (String × α))
  | .map es closed => do
    let as ← entries read es
    if closed then return as else throw .form
  | d => .error (unexpected "a map" d)

/-! ## Records -/

/-- Whether a list may hold more items than the record it stands for has
    fields. -/
inductive Surplus where
  | ignored
  | refused
  deriving DecidableEq

/-- A record type `α` with fields `φ`, filled step by step in a draft `δ`. -/
structure Record (φ δ α : Type) where
  /-- The name of the record in messages. -/
  title : String
  /-- The fields in the order of declaration. -/
  fields : List φ
  /-- The name of a field. -/
  name : φ → String
  /-- The field that a key stands for. -/
  fieldOf : String → Option φ
  /-- The draft in which nothing is filled. -/
  blank : δ
  /-- Whether a field is filled. -/
  filled : δ → φ → Bool
  /-- The draft with a field read from a document. -/
  fill : δ → φ → Document → Read δ
  /-- The record, or the first field that it cannot do without. -/
  finish : δ → Except φ α

namespace Record

variable {φ δ α : Type}

/-- The name of a record in messages. -/
def expected (r : Record φ δ α) : String :=
  "struct " ++ r.title

/-- The fields of a map, one key after another.  Unknown keys are passed over,
    a field that is given twice is a mismatch before its second value is read. -/
def fillEntries (r : Record φ δ α) (draft : δ) : List (Option String × Document) → Read δ
  | [] => .ok draft
  | (none, _) :: _ => .error .form
  | (some k, d) :: es =>
    match r.fieldOf k with
    | none => do
      skip d
      fillEntries r draft es
    | some f =>
      if r.filled draft f then .error (.content (.duplicateField (r.name f)))
      else do
        let draft ← r.fill draft f d
        fillEntries r draft es

/-- The fields of a list, in the order of declaration, as far as it goes. -/
def fillItems (r : Record φ δ α) (draft : δ) : List φ → List Document → Read δ
  | f :: fs, d :: ds => do
    let draft ← r.fill draft f d
    fillItems r draft fs ds
  | _, _ => .ok draft

/-- What a list with too few items is told. -/
def lengthExpected (r : Record φ δ α) : String :=
  let n := r.fields.length
  r.expected ++ " with " ++ toString n ++ (if n = 1 then " element" else " elements")

/-- The index of a field in the order of declaration. -/
def indexOf [DecidableEq φ] (r : Record φ δ α) (f : φ) : Nat :=
  r.fields.findIdx (· = f)

/-- A record from a map, or from a list of its fields. -/
def read [DecidableEq φ] (r : Record φ δ α) (surplus : Surplus) : Document → Read α
  | .map es closed => do
    let draft ← r.fillEntries r.blank es
    if !closed then throw .form
    match r.finish draft with
    | .ok a => return a
    | .error f => throw (.content (.missingField (r.name f)))
  | .seq ds closed => do
    let draft ← r.fillItems r.blank r.fields ds
    if !closed && ds.length < r.fields.length then throw .form
    match r.finish draft with
    | .ok a =>
      if surplus = .refused && r.fields.length < ds.length || !closed then throw .form
      return a
    | .error f => throw (.content (.invalidLength (r.indexOf f) r.lengthExpected))
  | d => .error (unexpected r.expected d)

end Record

end Schema

end PluginHost
