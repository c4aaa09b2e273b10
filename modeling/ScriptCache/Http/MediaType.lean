/-!
# Media types

A media type is a type and a subtype, which may end in a suffix after a plus, with parameters.
-/

namespace ScriptCache.Http

/-- The characters of names in a header. -/
def isTokenChar (c : Char) : Bool :=
  c.isAlphanum || "!#$%&*+-.^_|~".toList.contains c || c.toNat = 0x27 || c.toNat = 0x60

/-- What may stand between quotes. -/
def isQuotable (c : Char) : Bool := 0x20 ≤ c.toNat && c.toNat < 0x7F

/-- Where in a list of parameters a reader stands. -/
inductive ParameterPlace where
  /-- Behind a parameter and its semicolon. -/
  | separated
  | name (isEmpty : Bool)
  | value (isEmpty : Bool)
  | quoted (isEmpty : Bool)
  | behindQuote
  deriving DecidableEq, Repr

namespace ParameterPlace

def step : ParameterPlace → Char → Option ParameterPlace
  | .separated, c => if c = ' ' then some (.name true) else ifToken c (.name false)
  | .name true, c => if c = ' ' then some (.name true) else ifToken c (.name false)
  | .name false, c => if c = '=' then some (.value true) else ifToken c (.name false)
  | .value true, c => if c = '"' then some (.quoted true) else ifToken c (.value false)
  | .value false, c => if c = ';' then some .separated else ifToken c (.value false)
  | .quoted isEmpty, c =>
    if c = '"' ∧ ¬isEmpty then some .behindQuote
    else if isQuotable c then some (.quoted false)
    else none
  | .behindQuote, c =>
    if c = ';' then some .separated else if c = ' ' then some .behindQuote else none
where
  ifToken (c : Char) (place : ParameterPlace) : Option ParameterPlace :=
    if isTokenChar c then some place else none

/-- Whether the list may end here. -/
def isEnd : ParameterPlace → Bool
  | .separated | .value _ | .behindQuote => true
  | .name _ | .quoted _ => false

end ParameterPlace

/-- Whether a text is a list of parameters, without the semicolon in front of it. -/
def areParameters (s : List Char) : Bool :=
  (s.foldlM ParameterPlace.step (.name true)).any (·.isEnd)

structure MediaType where
  kind : String
  subtype : String
  suffix : Option String
  deriving DecidableEq, Repr

namespace MediaType

/-- Splits a subtype at its last plus. -/
def splitSuffix (s : List Char) : List Char × Option (List Char) :=
  let (after, before) := s.reverse.span (· ≠ '+')
  match before with
  | _ :: c :: before => ((c :: before).reverse, some after.reverse)
  | _ => (s, none)

/-- Reads a media type. Case does not count. -/
def ofText? (text : String) : Option MediaType :=
  let (kind, rest) := text.toLower.toList.span isTokenChar
  match kind, rest with
  | _ :: _, '/' :: rest =>
    let (subtype, rest) := rest.span isTokenChar
    let known := match rest with
      | [] => true
      | ';' :: parameters => areParameters parameters
      | _ => false
    let (subtype, suffix) := splitSuffix subtype
    if known && !subtype.isEmpty then
      some ⟨String.ofList kind, String.ofList subtype, suffix.map String.ofList⟩
    else none
  | _, _ => none

/-- Whether bodies of this type are JSON. -/
def isJson (t : MediaType) : Bool :=
  t.kind == "application" && (t.subtype == "json" || t.suffix == some "json")

end MediaType

end ScriptCache.Http
