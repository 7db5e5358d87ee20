import Attestor.Chain.Header
import Attestor.Chain.Transaction

/-! What a node is asked: for its best chain, by height and by hash; what can go wrong then; and a
node that holds its chain in memory. -/

namespace Attestor.Node

/-! ### Faults -/

/-- The connection failed, or what came back was not the expected JSON. -/
inductive HttpFault where
  | request
  | decode
  deriving DecidableEq

inductive Error where
  | http (fault : HttpFault)
  /-- The node answered with an error of its own. -/
  | rpc (method : String) (code : Int) (message : String)
  | emptyResult (method : String)
  | chain (fault : Chain.Error)
  | unavailable (reason : String)
  deriving DecidableEq

def Error.message : Error → String
  | .http _ => "http error: "
  | .rpc method code message =>
    "rpc " ++ method ++ " failed (" ++ toString code ++ "): " ++ message
  | .emptyResult method => "rpc " ++ method ++ " returned no result"
  | .chain fault => "invalid chain data: " ++ fault.message
  | .unavailable reason => "feed unavailable: " ++ reason

/-! ### Questions -/

inductive Question where
  /-- The height of the newest block. -/
  | tip
  | hashAt (height : UInt32)
  /-- The headers from one height to another, both included, oldest first. -/
  | headers (first last : UInt32)
  | block (id : Digest)
  /-- The newest headers, at most `count` of them. -/
  | recent (count : Nat)
  deriving DecidableEq

abbrev Question.Answer : Question → Type
  | tip => Except Error UInt32
  | hashAt _ => Except Error Digest
  | headers _ _ | recent _ => Except Error HeaderBatch
  | block _ => Except Error Block

/-! ### A node in memory

It holds its chain from height zero on. -/

structure Memory where
  headers : List Header
  /-- The transactions of blocks; of several entries for a block the first counts. -/
  transactions : List (Digest × List Transaction)
  offline : Bool
  deriving Inhabited

namespace Memory

def empty : Memory := ⟨[], [], false⟩

def noBlockAt (height : UInt32) : Error :=
  .unavailable ("no block at height " ++ toString height.toNat)

def tip (m : Memory) : Except Error UInt32 :=
  let count := UInt32.ofNat m.headers.length
  if count = 0 then .error (.emptyResult "tip_height") else .ok (count - 1)

def hashAt (m : Memory) (height : UInt32) : Except Error Digest :=
  match m.headers[height.toNat]? with
  | some h => .ok h.id
  | none => .error (noBlockAt height)

/-- A range may be empty, but it must lie in the chain. -/
def range (m : Memory) (first last : UInt32) : Except Error HeaderBatch :=
  let finish := last.toNat + 1
  if finish < first.toNat ∨ m.headers.length < finish then .error (noBlockAt last)
  else .ok ⟨first, (m.headers.take finish).drop first.toNat⟩

def block (m : Memory) (id : Digest) : Except Error Block :=
  match m.headers.find? (·.id = id) with
  | some h => .ok ⟨h, (m.transactions.lookup id).getD []⟩
  | none => .error (.unavailable ("unknown block " ++ Digest.text id))

def recent (m : Memory) (count : Nat) : HeaderBatch :=
  let start := m.headers.length - count
  ⟨.ofNat start, m.headers.drop start⟩

def refusal : Error := .unavailable "memory feed offline"

def answer (m : Memory) : (q : Question) → q.Answer
  | .tip => if m.offline then .error refusal else m.tip
  | .hashAt height => if m.offline then .error refusal else m.hashAt height
  | .headers first last => if m.offline then .error refusal else m.range first last
  | .block id => if m.offline then .error refusal else m.block id
  | .recent count => if m.offline then .error refusal else .ok (m.recent count)

end Memory

end Attestor.Node
