import Attestor.Chain.Header

/-! The window of recent blocks: the hashes of consecutive blocks, oldest first, and the height of
the newest one. Headers extend it at its end, or from one of its blocks on, after which the
blocks that came behind that one are gone. -/

namespace Attestor

structure Window where
  hashes : List Digest
  height : UInt32
  deriving DecidableEq, Inhabited

namespace Window

open HeaderBatch (Overflow heightAfter)

def empty : Window := ⟨[], 0⟩

def size (w : Window) : Nat := w.hashes.length

/-- The newest block and its height. -/
def tip? (w : Window) : Option (Digest × UInt32) := w.hashes.getLast?.map fun d => (d, w.height)

/-- Keeps the newest `n` blocks. -/
def trim (w : Window) (n : Nat) : Window := { w with hashes := w.hashes.drop (w.size - n) }

/-- The window with one more block. -/
def push (w : Window) (d : Digest) : Except Overflow Window :=
  (heightAfter w.height 1).map fun height => ⟨w.hashes ++ [d], height⟩

/-- The window up to the block at an index. -/
def cut (w : Window) (i : Nat) : Window :=
  ⟨w.hashes.take (i + 1), .ofNat (w.height.toNat - (w.size - (i + 1)))⟩

/-- The part of the window that a header extends: all of it, or the part up to the first
block that is the header's parent. -/
def base? (w : Window) (h : Header) : Option Window :=
  if w.hashes.getLast? = some h.parent then some w
  else (w.hashes.idxOf? h.parent).map w.cut

/-- Takes headers in order, leaving out those that extend nothing; `linked` counts the
others. -/
def apply (w : Window) (linked : Nat) : List Header → Except Overflow (Window × Nat)
  | [] => .ok (w, linked)
  | h :: rest =>
    match w.base? h with
    | none => apply w linked rest
    | some base => do apply (← base.push h.id) (linked + 1) rest

/-- Why headers make no window. -/
inductive Fault where
  /-- A header does not name the one before it as its parent. -/
  | unlinked (id previous : Digest)
  | overflow
  deriving DecidableEq

/-- The window that holds just the headers of a batch. -/
def ofBatch (b : HeaderBatch) : Except Fault Window :=
  match Header.unlinked? b.headers with
  | some (id, previous) => .error (.unlinked id previous)
  | none =>
    match b.finish with
    | .ok height => .ok ⟨b.ids, height.getD 0⟩
    | .error _ => .error .overflow

end Window

end Attestor

/-! ### The stored form

A version, the height, a count, and the hashes, of which it holds the newest 255 at most. -/

namespace Attestor.Window

namespace Snapshot

def version : UInt8 := 0

inductive Fault where
  | tooShort (length : Nat)
  | unknownVersion (version : UInt8)
  | wrongSize (count : UInt8) (length : Nat)
  deriving DecidableEq

def Fault.message : Fault → String
  | .tooShort length => toString length ++ " bytes is too short"
  | .unknownVersion version => "unknown version " ++ toString version.toNat
  | .wrongSize count length =>
    toString count.toNat ++ " hashes do not fit " ++ toString length ++ " bytes"

end Snapshot

def encode (w : Window) : Bytes :=
  let kept := w.trim 255
  Snapshot.version :: (Bytes.littleEndian 4 w.height.toNat ++
    UInt8.ofNat kept.size :: kept.hashes.flatMap Octets.toList)

def decode (b : Bytes) : Except Snapshot.Fault Window :=
  match b with
  | version :: h₀ :: h₁ :: h₂ :: h₃ :: count :: body =>
    if version ≠ Snapshot.version then .error (.unknownVersion version)
    else if body.length ≠ count.toNat * 32 then .error (.wrongSize count body.length)
    else
      match (Bytes.pieces 31 body).mapM (Octets.ofList? 32) with
      | some hashes => .ok ⟨hashes, .ofNat (Bytes.ofLittleEndian [h₀, h₁, h₂, h₃])⟩
      | none => .error (.wrongSize count body.length)
  | _ => .error (.tooShort b.length)

end Attestor.Window
