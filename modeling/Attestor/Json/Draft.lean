import Attestor.Json.Token

/-! Documents as far as they can be read. A reader that expects certain kinds of values
stops at the first thing that is wrong, so what comes before a syntax error still counts:
a draft keeps it, and marks the value at which the text broke off. -/

namespace Attestor.Json

/-- A value, or as much of it as was readable. Arrays and objects are `closed` if they were
read to their end; `cut` stands for a value of which nothing can be told. Texts and keys
without content can be skipped, but not be kept. -/
inductive Draft where
  | cut
  | null
  | bool (b : Bool)
  | number (n : Numeral)
  | text (content : Option String)
  | array (items : List Draft) (closed : Bool)
  | object (members : List (Option String × Draft)) (closed : Bool)

/-- An array or object that is being read, what it holds newest first. A `member` has a key
whose value is not complete. -/
inductive Frame where
  | array (items : List Draft)
  | object (members : List (Option String × Draft))
  | member (members : List (Option String × Draft)) (key : Option String)

/-- What may come next. -/
inductive Expecting where
  | value
  | valueOrClose
  | key
  | keyOrClose
  | colon
  | separator

/-- Puts tokens together to a draft. -/
inductive Builder where
  | reading (frames : List Frame) (expecting : Expecting)
  | broken (frames : List Frame)
  | finished (root : Draft) (alone : Bool)

namespace Builder

def start : Builder := reading [] .value

/-- Puts a complete value where it belongs. -/
def place (value : Draft) : List Frame → Builder
  | [] => finished value true
  | .array items :: frames => reading (.array (value :: items) :: frames) .separator
  | .member members key :: frames =>
    reading (.object ((key, value) :: members) :: frames) .separator
  | .object members :: frames => broken (.object members :: frames)

/-- A token where a value is due. -/
def stepValue (frames : List Frame) : Token → Builder
  | .null => place .null frames
  | .bool b => place (.bool b) frames
  | .number n => place (.number n) frames
  | .text content => place (.text content) frames
  | .openArray => reading (.array [] :: frames) .valueOrClose
  | .openObject => reading (.object [] :: frames) .keyOrClose
  | _ => broken frames

/-- A token that may end the array or object on top. -/
def stepClose (frames : List Frame) (token : Token) : Option Builder :=
  match frames, token with
  | .array items :: frames, .closeArray => some (place (.array items.reverse true) frames)
  | .object members :: frames, .closeObject => some (place (.object members.reverse true) frames)
  | _, _ => none

/-- A token where a key is due. -/
def stepKey (frames : List Frame) (token : Token) : Builder :=
  match frames, token with
  | .object members :: frames, .text key => reading (.member members key :: frames) .colon
  | _, _ => broken frames

def step (b : Builder) (token : Token) : Builder :=
  match b with
  | reading frames .value => stepValue frames token
  | reading frames .valueOrClose => (stepClose frames token).getD (stepValue frames token)
  | reading frames .key => stepKey frames token
  | reading frames .keyOrClose => (stepClose frames token).getD (stepKey frames token)
  | reading frames .colon =>
    if token = .colon then reading frames .value else broken frames
  | reading frames .separator =>
    match stepClose frames token with
    | some b => b
    | none =>
      match frames, token with
      | .array _ :: _, .comma => reading frames .value
      | .object _ :: _, .comma => reading frames .key
      | _, _ => broken frames
  | broken frames => broken frames
  | finished root _ => finished root false

/-- The draft of what was read when the text broke off; `value` is the part inside the top
frame, if it was begun. -/
def collapse (value : Option Draft) : List Frame → Draft
  | [] => value.getD .cut
  | .array items :: frames =>
    collapse (some (.array (value.toList ++ items).reverse false)) frames
  | .object members :: frames => collapse (some (.object members.reverse false)) frames
  | .member members key :: frames =>
    collapse (some (.object ((key, value.getD .cut) :: members).reverse false)) frames

/-- The draft, and whether nothing follows the value in the text. -/
def finish : Builder → Draft × Bool
  | reading frames _ | broken frames => (collapse none frames, true)
  | finished root alone => (root, alone)

end Builder

namespace Draft

/-- The draft of a text given as bytes, and whether nothing follows it. -/
def ofBytes (b : Bytes) : Draft × Bool := ((tokens b).foldl Builder.step Builder.start).finish

/-- Whether the value was read to its end. -/
def isWhole : Draft → Bool
  | cut => false
  | array _ closed | object _ closed => closed
  | _ => true

mutual

/-- Whether the value can be kept as it is: all of it was read and has content, and at most
`depth` arrays and objects lie one inside the other. -/
def isKept (depth : Nat) : Draft → Bool
  | cut => false
  | null | bool _ => true
  | number n => n.isFinite
  | text content => content.isSome
  | array items closed => closed && 0 < depth && areKept (depth - 1) items
  | object members closed => closed && 0 < depth && areMembersKept (depth - 1) members

def areKept (depth : Nat) : List Draft → Bool
  | [] => true
  | d :: rest => d.isKept depth && areKept depth rest

def areMembersKept (depth : Nat) : List (Option String × Draft) → Bool
  | [] => true
  | (key, d) :: rest => key.isSome && d.isKept depth && areMembersKept depth rest

end

end Draft

end Attestor.Json
