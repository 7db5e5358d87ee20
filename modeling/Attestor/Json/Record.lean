import Attestor.Json.Draft

/-! Reading values of known kinds from a document. There are two faults: the text is not
JSON, or it is JSON of another shape; which one is reported is decided by what comes first
in the text. A record is read from an object, whose further members are skipped, or from
an array that holds the fields in order. -/

namespace Attestor.Json

inductive Fault where
  | malformed
  | mismatched
  deriving DecidableEq

namespace Draft

/-- The fault of a value of another kind than was due. A kept number must be a double and
a kept text must have content; arrays and objects are not looked into. -/
def fault : Draft → Fault
  | cut | text none => .malformed
  | number n => if n.isFinite then .mismatched else .malformed
  | _ => .mismatched

def asText : Draft → Except Fault String
  | text (some s) => .ok s
  | d => .error d.fault

def asBool : Draft → Except Fault Bool
  | bool b => .ok b
  | d => .error d.fault

/-- A natural number below `bound`, written plainly. -/
def asNat (bound : Nat) : Draft → Except Fault Nat
  | number n =>
    match n.natural? with
    | some v => if v < bound then .ok v else .error (number n).fault
    | none => .error (number n).fault
  | d => .error d.fault

def asUInt32 (d : Draft) : Except Fault UInt32 := (asNat UInt32.size d).map UInt32.ofNat

def asUInt64 (d : Draft) : Except Fault UInt64 := (asNat UInt64.size d).map UInt64.ofNat

/-- A signed number of 64 bits, written plainly. -/
def asInt64 : Draft → Except Fault Int
  | number n =>
    match n.integer? with
    | some v =>
      if Int64.minValue.toInt ≤ v ∧ v ≤ Int64.maxValue.toInt then .ok v
      else .error (number n).fault
    | none => .error (number n).fault
  | d => .error d.fault

/-- Null, or something to read. -/
def asOptional {α : Type} (read : Draft → Except Fault α) : Draft → Except Fault (Option α)
  | null => .ok none
  | d => (read d).map some

def asList {α : Type} (read : Draft → Except Fault α) : Draft → Except Fault (List α)
  | array items closed => do
    let values ← items.mapM read
    if closed then pure values else .error .malformed
  | d => .error d.fault

end Draft

/-- Whether a member must be given. An `optional` one may be left out of an object, but an
array must hold it, if only as null; a `defaulted` one may be left out of both. -/
inductive Presence where
  | required
  | optional
  | defaulted
  deriving DecidableEq

/-- A named part of the records that are collected in a `σ`. -/
structure Member (σ : Type) where
  name : String
  presence : Presence
  read : σ → Draft → Except Fault σ

namespace Member

variable {σ α : Type}

/-- A member whose value is read by `value` and put into the record by `put`. -/
def of (name : String) (presence : Presence) (value : Draft → Except Fault α)
    (put : σ → α → σ) : Member σ :=
  ⟨name, presence, fun s d => (value d).map (put s)⟩

end Member

namespace Record

variable {σ : Type}

/-- Reads the members of an object in order, and gives also the names of the fields that
were among them. A field must not occur twice; other members need only be whole. -/
def members (fields : List (Member σ)) (seen : List String) (s : σ) :
    List (Option String × Draft) → Except Fault (List String × σ)
  | [] => .ok (seen, s)
  | (none, _) :: _ => .error .malformed
  | (some key, value) :: rest =>
    match fields.find? (·.name = key) with
    | none => if value.isWhole then members fields seen s rest else .error .malformed
    | some field =>
      if key ∈ seen then .error .mismatched
      else do members fields (key :: seen) (← field.read s value) rest

/-- Reads the items of an array as the fields in order. -/
def items (fields : List (Member σ)) (s : σ) (closed : Bool) : List Draft → Except Fault σ
  | [] =>
    if !closed then .error .malformed
    else if fields.any (·.presence ≠ .defaulted) then .error .mismatched
    else .ok s
  | value :: rest =>
    match fields with
    | [] => .error .malformed
    | field :: fields => do items fields (← field.read s value) closed rest

/-- Reads a record, starting from the values in `s`. -/
def read (fields : List (Member σ)) (s : σ) : Draft → Except Fault σ
  | .object ms closed => do
    let (seen, s) ← members fields [] s ms
    if !closed then .error .malformed
    else if fields.any (fun f => f.presence = .required && f.name ∉ seen) then .error .mismatched
    else .ok s
  | .array values closed => items fields s closed values
  | d => .error d.fault

end Record

/-- Reads a text that holds a single value. -/
def parse {α : Type} (read : Draft → Except Fault α) (b : Bytes) : Except Fault α := do
  let (root, alone) := Draft.ofBytes b
  let v ← read root
  if alone then pure v else .error .malformed

/-- Reads the first value of a text; what follows it is ignored. -/
def parseFirst {α : Type} (read : Draft → Except Fault α) (b : Bytes) : Except Fault α :=
  read (Draft.ofBytes b).1

end Attestor.Json
