import Attestor.Chain.Transaction
import Attestor.Error
import Attestor.Formation

/-! The newest formation of each contract. An action output in a transaction is filed under
the address that signed the first input, unless the filed record is newer. Records are kept
as scripts and read anew each time; an unreadable one gives way to any other. Only one save
at a time looks at the filed record and writes its own. -/

namespace Attestor

/-- The network that addresses are shown for, and which protocol name counts. -/
structure Formations where
  network : Network
  isTest : Bool

namespace Formations

/-- What is asked of the storage, which keeps scripts under the bytes of addresses. -/
inductive Question where
  | canceled
  /-- Waits until no other save is under way. -/
  | acquire
  /-- Lets the next save begin. -/
  | release
  | read (key : Bytes)
  | write (key : Bytes) (script : Bytes)
  deriving DecidableEq

abbrev Question.Answer : Question → Type
  | canceled => Bool
  | acquire | release => Unit
  | read _ => Except Error (Option Bytes)
  | write _ _ => Except Error Unit

abbrev Action := ExceptT Error (Dialogue Question Question.Answer)

/-- A single question, with its answer. -/
def ask (q : Question) : Dialogue Question Question.Answer q.Answer := .question q

def read (key : Bytes) : Action (Option Bytes) :=
  guarded (ask .canceled) .readFormation (ask (.read key))

def write (key script : Bytes) : Action Unit :=
  guarded (ask .canceled) .writeFormation (ask (.write key script))

/-- Whether a filed script may be replaced by one with the timestamp: it may unless it is a
formation with a later one. -/
def yields (s : Formations) (filed : Option Bytes) (timestamp : UInt64) : Bool :=
  match filed with
  | none => true
  | some script =>
    match Formation.ofScript script s.isTest with
    | .ok f => f.timestamp ≤ timestamp
    | .error _ => true

/-- Writes a formation unless the filed one is newer, and tells whether it did. -/
def replace (s : Formations) (a : Address) (f : Formation) (script : Bytes) : Action Bool := do
  if s.yields (← read a.bytes) f.timestamp then
    write a.bytes script
    pure true
  else pure false

/-- Files a formation unless the filed one is newer, while no other save is under way. -/
def save (s : Formations) (a : Address) (f : Formation) (script : Bytes) : Action Bool := .mk do
  ask .acquire
  let r ← (s.replace a f script).run
  ask .release
  return r

/-- The filed formation of a contract. -/
def get (s : Formations) (a : Address) : Action Formation := do
  match ← read a.bytes with
  | none => throw (.notFound .formation (a.text s.network))
  | some script =>
    match Formation.ofScript script s.isTest with
    | .ok f => pure f
    | .error fault => throw (.malformed .formation fault.message)

/-- Files the formations among outputs; `saved` counts those that were written. Only a
cancellation ends the scan, any other failure concerns a single output. -/
def observeOutputs (s : Formations) (a : Address) (saved : Nat) :
    List Output → Dialogue Question Question.Answer (Except Error Nat)
  | [] => pure (.ok saved)
  | o :: rest =>
    match Formation.ofScript o.script s.isTest with
    | .error _ => observeOutputs s a saved rest
    | .ok f => do
      match ← (s.save a f o.script).run with
      | .ok true => observeOutputs s a (saved + 1) rest
      | .error (.canceled operation) => pure (.error (.canceled operation))
      | .ok false | .error _ => observeOutputs s a saved rest

/-- Files the formations that a transaction carries, and counts those that were written. -/
def observe (s : Formations) (t : Transaction) : Action Nat :=
  match t.signer? with
  | none => pure 0
  | some a => .mk (observeOutputs s a 0 t.outputs)

end Formations

end Attestor
