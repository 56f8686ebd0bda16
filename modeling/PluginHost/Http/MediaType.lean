/-
  PluginHost.Http.MediaType

  The type of a body as a header names it: a type, a subtype that may end in a
  suffix, and parameters.
-/

namespace PluginHost

namespace Http

/-- A media type without its parameters, in small letters. -/
structure MediaType where
  type : String
  subtype : String
  /-- What follows the last plus sign of the subtype. -/
  suffix : Option String := none
  deriving DecidableEq

namespace MediaType

/-- Whether a character may stand in a word of a header. -/
def isToken (c : Char) : Bool :=
  c.isAlphanum || "!#$%&\x27*+-.^_\x60|~".toList.contains c

/-- Whether a character may stand between quotes. -/
def isQuotable (c : Char) : Bool :=
  ' ' ≤ c && c ≤ '~'

/-! ## Parameters -/

/-- Where a reader of parameters stands. -/
inductive ParameterState where
  | beforeName
  | inName
  | beforeValue
  | inValue
  /-- After an opening quote; a quote right after it closes nothing. -/
  | quoteOpened
  | inQuotes
  | quoteClosed

/-- The state after a character, if that may stand there. -/
def ParameterState.step : ParameterState → Char → Option ParameterState
  | .beforeName, c => if c = ' ' then some .beforeName else if isToken c then some .inName else none
  | .inName, c => if c = '=' then some .beforeValue else if isToken c then some .inName else none
  | .beforeValue, c =>
    if c = '"' then some .quoteOpened else if isToken c then some .inValue else none
  | .inValue, c => if c = ';' then some .beforeName else if isToken c then some .inValue else none
  | .quoteOpened, c => if isQuotable c then some .inQuotes else none
  | .inQuotes, c =>
    if c = '"' then some .quoteClosed else if isQuotable c then some .inQuotes else none
  | .quoteClosed, c =>
    if c = ';' then some .beforeName else if c = ' ' then some .quoteClosed else none

/-- Whether parameters may end here. -/
def ParameterState.isFinal : ParameterState → Bool
  | .beforeName | .beforeValue | .inValue | .quoteClosed => true
  | .inName | .quoteOpened | .inQuotes => false

/-- Whether a text, which follows a semicolon, is made of parameters. -/
def areParameters (cs : List Char) : Bool :=
  ((cs.foldlM ParameterState.step .beforeName).map (·.isFinal)).getD false

/-! ## Types -/

/-- A subtype, divided at its last plus sign; one at its beginning is part of
    it. -/
def ofSubtype (type subtype : List Char) : MediaType :=
  let lower (cs : List Char) : String := String.ofList (cs.map Char.toLower)
  let suffix := (subtype.drop 1).reverse.takeWhile (· ≠ '+')
  if suffix.length = subtype.length - 1 then ⟨lower type, lower subtype, none⟩
  else
    ⟨lower type, lower (subtype.take (subtype.length - suffix.length - 1)),
      some (lower suffix.reverse)⟩

/-- The media type that a header names. -/
def parse? (header : String) : Option MediaType :=
  let blank (c : Char) : Bool := c = ' ' || c = '\t'
  let trimmed := ((header.toList.dropWhile blank).reverse.dropWhile blank).reverse
  let type := trimmed.takeWhile isToken
  match trimmed.drop type.length with
  | '/' :: rest =>
    let subtype := rest.takeWhile isToken
    match rest.drop subtype.length with
    | [] => if type = [] then none else some (ofSubtype type subtype)
    | ';' :: parameters =>
      if type = [] ∨ subtype = [] ∨ !areParameters parameters then none
      else some (ofSubtype type subtype)
    | _ => none
  | _ => none

end MediaType

end Http

end PluginHost
