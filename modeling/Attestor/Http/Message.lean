import Attestor.Error
import Attestor.Json.Value
import Attestor.Text.Basic

/-! Requests and responses of the service's interface, how an error of the oracle is answered, and
which media types are JSON. -/

namespace Attestor.Http

structure Request where
  method : String
  /-- The path, after a scheme and a host if they are given, and the query if there is one. -/
  target : String
  contentType : Option String
  body : Bytes

namespace Request

def isSchemeChar (c : Char) : Bool := c.isAlphanum || c == '+' || c == '-' || c == '.'

/-- What follows the scheme and the host, if the target begins with them. -/
def afterHost? (target : List Char) : Option (List Char) :=
  match target.dropWhile isSchemeChar with
  | ':' :: '/' :: '/' :: rest => some (rest.dropWhile fun c => c ≠ '/' && c ≠ '?' && c ≠ '#')
  | _ => none

/-- The part of a target that names a resource. A host alone stands for its root. -/
def path (r : Request) : String :=
  let named (t : List Char) := String.ofList (t.takeWhile fun c => c ≠ '?' && c ≠ '#')
  match afterHost? r.target.toList with
  | none => named r.target.toList
  | some rest => if (named rest).isEmpty then "/" else named rest

end Request

inductive Body where
  | none
  | text (s : String)
  | json (v : Json.Value)

structure Response where
  status : Nat
  body : Body

open Json (Value)

/-- What a handler answers, wrapped. -/
def success (data : Value) : Value :=
  .object [("success", .bool true), ("data", data), ("error", .null)]

def failure (message : String) : Value :=
  .object [("success", .bool false), ("data", .null), ("error", .text message)]

/-- A request that is refused by a handler. -/
structure Refusal where
  status : Nat
  message : String
  deriving DecidableEq

namespace Refusal

def response (r : Refusal) : Response := ⟨r.status, .json (failure r.message)⟩

/-- The status of an error. -/
def statusOf : Error → Nat
  | .notFound _ _ => 404
  | .insufficientHeaders _ _ => 503
  | .keySetExists => 409
  | e => if e.isClient then 400 else 500

/-- An error of the service itself is not shown to the caller. -/
def ofError (e : Error) : Refusal :=
  let status := statusOf e
  ⟨status, if status = 500 then "internal server error" else e.message⟩

def ofKeyError (e : Key.Error) : Refusal := ⟨400, e.message⟩

end Refusal

end Attestor.Http

/-! ### Media types

A type, a subtype that may have a suffix after its last plus sign, and parameters, whose values
may be quoted. Only whether a text is a media type for JSON matters. -/

namespace Attestor.Http.MediaType

def isAlphanumeric (c : Char) : Bool :=
  ('a' ≤ c && c ≤ 'z') || ('A' ≤ c && c ≤ 'Z') || ('0' ≤ c && c ≤ '9')

/-- The characters of a token. -/
def isToken (c : Char) : Bool := isAlphanumeric c || "!#$%&*+-.^_|~".toList.contains c ||
  c.toNat = 0x27 || c.toNat = 0x60

/-- The characters between quotes. -/
def isQuotable (c : Char) : Bool := 0x20 ≤ c.toNat && c.toNat < 0x7f

/-- Where a reader of parameters stands. -/
inductive Place where
  /-- Before a name. -/
  | start
  | name
  /-- After the equals sign. -/
  | equals
  | value
  /-- After the opening quote. -/
  | opened
  | quoted
  /-- After the closing quote. -/
  | closed

/-- The next place, unless the character does not belong there. -/
def Place.step (p : Place) (c : Char) : Option Place :=
  match p with
  | .start => if c = ' ' then some .start else if isToken c then some .name else none
  | .name => if c = '=' then some .equals else if isToken c then some .name else none
  | .equals => if c = '"' then some .opened else if isToken c then some .value else none
  | .value => if c = ';' then some .start else if isToken c then some .value else none
  | .opened => if isQuotable c then some .quoted else none
  | .quoted => if c = '"' then some .closed else if isQuotable c then some .quoted else none
  | .closed => if c = ';' then some .start else if c = ' ' then some .closed else none

/-- Whether the text may end there. -/
def Place.final : Place → Bool
  | .start | .equals | .value | .closed => true
  | .name | .opened | .quoted => false

/-- Whether characters after the first semicolon are parameters. -/
def areParameters (cs : List Char) : Bool :=
  match cs.foldlM Place.step .start with
  | some p => p.final
  | none => false

/-- The subtype without its suffix, and the suffix; a plus sign in front is no separator. -/
def splitSuffix (subtype : List Char) : List Char × Option (List Char) :=
  let after := (subtype.reverse.takeWhile (· ≠ '+')).reverse
  let before := subtype.take (subtype.length - after.length - 1)
  if after.length < subtype.length ∧ before ≠ [] then (before, some after) else (subtype, none)

/-- Whether the text is a media type for JSON: `application/json`, or a subtype of
`application` with the suffix `json`, in any case. -/
def isJson (s : String) : Bool :=
  let cs := s.toList
  let kind := cs.takeWhile (· ≠ '/')
  let rest := (cs.drop (kind.length + 1))
  let subtype := rest.takeWhile (· ≠ ';')
  let (base, suffix) := splitSuffix (subtype.map Char.toLower)
  let json := "json".toList
  kind.all isToken && kind.map Char.toLower = "application".toList && kind.length < cs.length &&
    subtype.all isToken && areParameters (rest.drop (subtype.length + 1)) &&
    (base = json || suffix = some json)

end Attestor.Http.MediaType
