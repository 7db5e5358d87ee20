import Attestor.Hash
import Attestor.Text.Digits

/-! Block headers: 80 bytes, named by their double SHA-256 and linked to a parent. Chain data is
read from the front of a byte string. -/

namespace Attestor

/-! ### Hashes of chain data

They have 32 bytes, which their text gives in reverse. -/

/-- What can be wrong with chain data. -/
inductive Chain.Error where
  | malformed
  | hashLength (length : Nat)
  | hex (fault : Text.Hex.Error)
  deriving DecidableEq

def Chain.Error.message : Chain.Error → String
  | .malformed => "invalid consensus encoding: "
  | .hashLength length => "invalid hash length " ++ toString length ++ ", expected 32"
  | .hex fault => "invalid hex: " ++ fault.message

/-- A hash of chain data, its bytes in the order they were computed in. -/
abbrev Digest := Octets 32

namespace Digest

def zero : Digest := .replicate 32 0

def ofBytes (b : Bytes) : Except Chain.Error Digest :=
  match Octets.ofList? 32 b with
  | some d => .ok d
  | none => .error (.hashLength b.length)

def text (d : Digest) : String := Text.Hex.encode d.toList.reverse

/-- Reads the reversed digits; blanks are not allowed. -/
def parse (s : String) : Except Chain.Error Digest :=
  match Text.Hex.decode s with
  | .ok b => ofBytes b.reverse
  | .error fault => .error (.hex fault)

/-- Digests are ordered by their bytes, not by their text. -/
def le (a b : Digest) : Bool := a.toList ≤ b.toList

/-- The digest as it is shown to a person. -/
def shown (d : Digest) : String := "Hash32(" ++ text d ++ ")"

end Digest

end Attestor

/-! ### Reading

Counts and lengths are compact sizes: one byte below 253, else a marker and two, four or eight
bytes, and never more bytes than needed. -/

namespace Attestor.Chain

/-- The compact form of a size. -/
def compact (n : Nat) : Bytes :=
  if n < 0xfd then [UInt8.ofNat n]
  else if n ≤ 0xffff then 0xfd :: Bytes.littleEndian 2 n
  else if n ≤ 0xffffffff then 0xfe :: Bytes.littleEndian 4 n
  else 0xff :: Bytes.littleEndian 8 n

/-- Takes something off the front of a byte string, unless it is cut short or malformed. -/
abbrev Reader := StateT Bytes Option

namespace Reader

def take (n : Nat) : Reader Bytes := fun b =>
  let (front, rest) := b.splitAt n
  if front.length = n then some (front, rest) else none

def octets (n : Nat) : Reader (Octets n) := do
  match Octets.ofList? n (← take n) with
  | some v => pure v
  | none => failure

/-- A number in `width` bytes, least significant first. -/
def number (width : Nat) : Reader Nat := do
  pure (Bytes.ofLittleEndian (← take width))

def u32 : Reader UInt32 := do pure (.ofNat (← number 4))

def u64 : Reader UInt64 := do pure (.ofNat (← number 8))

/-- A number in `width` bytes that must exceed `low`. -/
def above (low width : Nat) : Reader Nat := do
  let n ← number width
  if low < n then pure n else failure

def compact : Reader Nat := do
  let n ← number 1
  if n < 0xfd then pure n
  else if n = 0xfd then above 0xfc 2
  else if n = 0xfe then above 0xffff 4
  else above 0xffffffff 8

/-- A byte string after its length. -/
def sized : Reader Bytes := do take (← compact)

/-- `n` things in a row. -/
def times {α : Type} (r : Reader α) : Nat → Reader (List α)
  | 0 => pure []
  | n + 1 => do
    let x ← r
    let xs ← times r n
    pure (x :: xs)

/-- A list after its length. -/
def list {α : Type} (r : Reader α) : Reader (List α) := do times r (← compact)

/-- Reads a whole byte string; nothing may be left over. -/
def whole {α : Type} (r : Reader α) (b : Bytes) : Except Error α :=
  match r b with
  | some (a, []) => .ok a
  | _ => .error .malformed

end Reader

end Attestor.Chain

/-! ### Headers -/

namespace Attestor

structure Header where
  version : UInt32
  parent : Digest
  merkleRoot : Digest
  time : UInt32
  bits : UInt32
  nonce : UInt32
  deriving DecidableEq

namespace Header

def bytes (h : Header) : Bytes :=
  Bytes.littleEndian 4 h.version.toNat ++ h.parent.toList ++ h.merkleRoot.toList ++
    Bytes.littleEndian 4 h.time.toNat ++ Bytes.littleEndian 4 h.bits.toNat ++
    Bytes.littleEndian 4 h.nonce.toNat

/-- The name of the block, which the next block gives as its parent. -/
def id (h : Header) : Digest := Hash.doubleSha256 h.bytes

open Chain in
def reader : Reader Header := do
  let version ← Reader.u32
  let parent ← Reader.octets 32
  let merkleRoot ← Reader.octets 32
  let time ← Reader.u32
  let bits ← Reader.u32
  let nonce ← Reader.u32
  pure ⟨version, parent, merkleRoot, time, bits, nonce⟩

def ofBytes (b : Bytes) : Except Chain.Error Header := reader.whole b

/-- The first header that does not name the one before it as its parent, and that one. -/
def unlinked? : List Header → Option (Digest × Digest)
  | a :: b :: rest => if b.parent = a.id then unlinked? (b :: rest) else some (b.id, a.id)
  | _ => none

end Header

/-- Consecutive headers from a height on, oldest first. -/
structure HeaderBatch where
  start : UInt32
  headers : List Header
  deriving DecidableEq, Inhabited

namespace HeaderBatch

/-- The last height of the batch would not fit in 32 bits, or did not fit when it was
counted one by one. -/
inductive Overflow where
  | height
  deriving DecidableEq

/-- The sum of a height and a count of blocks, if it is a height. -/
def heightAfter (h : UInt32) (count : Nat) : Except Overflow UInt32 :=
  if h.toNat + count < UInt32.size then .ok (.ofNat (h.toNat + count)) else .error .height

/-- The height of the newest header; none for an empty batch. -/
def finish (b : HeaderBatch) : Except Overflow (Option UInt32) :=
  match b.headers with
  | [] => .ok none
  | _ :: rest => (heightAfter b.start rest.length).map some

def ids (b : HeaderBatch) : List Digest := b.headers.map Header.id

end HeaderBatch

end Attestor
