import Attestor.Error
import Attestor.Node.Basic
import Attestor.Window

/-! The tracker keeps the window of recent blocks as deep as signatures need it: `offset`
blocks. A batch of headers extends the window, or moves it to another branch; when it does
neither, or leaves too few blocks, the window is emptied and then rebuilt from the node. -/

namespace Attestor

structure Tracker where
  offset : Nat
  offset_pos : 0 < offset
  window : Window

namespace Tracker

open HeaderBatch (Overflow)

/-- A tracker that has seen nothing; the depth is at least one. -/
def new (offset : Nat) : Tracker := ⟨max offset 1, by omega, .empty⟩

/-- What the tracker asks while it rebuilds the window. -/
inductive Question where
  | canceled
  /-- The newest headers of the node. -/
  | recent (count : Nat)
  deriving DecidableEq

abbrev Question.Answer : Question → Type
  | canceled => Bool
  | recent _ => Except Node.Error HeaderBatch

/-- Takes a batch, and tells whether the window must be rebuilt; it is empty then. An empty
batch changes nothing. -/
def absorb (t : Tracker) (b : HeaderBatch) : Except Overflow (Tracker × Bool) := do
  match ← b.finish with
  | none => pure (t, false)
  | some _ =>
    let (w, linked) ← t.window.apply 0 b.headers
    let w := w.trim t.offset
    if linked = 0 ∨ w.size < t.offset then pure ({ t with window := .empty }, true)
    else pure ({ t with window := w }, false)

def unlinkedReason (id previous : Digest) : String :=
  Digest.text id ++ " does not follow " ++ Digest.text previous

/-- A single question, with its answer. -/
def ask (q : Question) : Dialogue Question Question.Answer q.Answer := .question q

/-- The window of the node's newest blocks. -/
def freshWindow (offset : Nat) : ExceptT Error (Dialogue Question Question.Answer) Window := do
  let batch ← guarded (ask .canceled) .recentHeaders do
    return (← ask (.recent offset)).mapError Error.node
  match Window.ofBatch batch with
  | .ok w => pure (w.trim offset)
  | .error (.unlinked id previous) => throw (.malformed .headerBatch (unlinkedReason id previous))
  | .error .overflow => liftM (Dialogue.halt : Dialogue Question Question.Answer Window)

/-- Replaces the window by one of the node's newest blocks; an error leaves it as it is. -/
def rebuild (t : Tracker) : Dialogue Question Question.Answer (Tracker × Except Error Unit) := do
  match ← (freshWindow t.offset).run with
  | .ok w => pure ({ t with window := w }, .ok ())
  | .error e => pure (t, .error e)

/-- Takes a batch and rebuilds the window if it must be; when that fails it stays empty. -/
def handle (t : Tracker) (b : HeaderBatch) : Dialogue Question Question.Answer Tracker := do
  let (t, must) ← Dialogue.ofExcept (t.absorb b)
  if must then return (← t.rebuild).1 else return t

/-- The newest block that `offset - 1` others follow, and its height. -/
def signingBlock (t : Tracker) : Except Error (Digest × UInt32) :=
  let tooFew := Error.insufficientHeaders t.window.size t.offset
  if t.window.size < t.offset then .error tooFew
  else
    match t.window.hashes[t.window.size - t.offset]? with
    | some d => .ok (d, .ofNat (t.window.height.toNat - (t.offset - 1)))
    | none => .error tooFew

/-- What is found in the place of a stored window. -/
inductive Stored where
  | missing
  /-- There is a file, but it cannot be read. -/
  | unreadable
  | file (bytes : Bytes)
  deriving DecidableEq

/-- The stored window; none if nothing is stored. -/
def Stored.window : Stored → Except Error (Option Window)
  | missing => .ok none
  | unreadable => .error .snapshot
  | file bytes =>
    match Window.decode bytes with
    | .ok w => .ok (some w)
    | .error fault => .error (.malformed .headerSnapshot fault.message)

/-- Takes over a stored window; if nothing is stored the tracker stays as it is. -/
def restore (s : Stored) : ExceptT Error (StateM Tracker) Unit := do
  match ← ExceptT.mk (pure s.window) with
  | none => pure ()
  | some w => modify fun t => { t with window := w.trim t.offset }

/-- The tracker once it has taken over the window in a file, if there is a file. -/
def load (t : Tracker) (file : Option Bytes) : Except Error Tracker :=
  let (r, t) := (restore (file.elim .missing .file)).run t
  r.map fun _ => t

/-- The bytes of a file that `restore` takes the window from. -/
def save (t : Tracker) : Bytes := t.window.encode

end Tracker

end Attestor
