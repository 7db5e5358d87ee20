import Attestor.Follower
import Attestor.Formations
import Attestor.Node.Basic
import Attestor.Oracle.Basic

/-! The whole service and what it asks of its surroundings. The oracle, the follower, the tracker
and the filed formations each ask in their own words; here their questions are put in common
words, and what one of them asks of another becomes the other's own questions. -/

namespace Attestor.Service

inductive Question where
  | canceled
  | node (q : Node.Question)
  /-- Waits until no other formation is being saved. -/
  | acquire
  /-- Lets the next formation be saved. -/
  | release
  | readScript (key : Bytes)
  | writeScript (key : Bytes) (script : Bytes)
  | store (q : Store.Question)
  /-- Whether the store can be reached. -/
  | ping
  | approve (h : Hook)
  | signingBlock
  | now
  | freshId
  deriving DecidableEq

abbrev Question.Answer : Question → Type
  | canceled => Bool
  | node q => q.Answer
  | acquire | release => Unit
  | readScript _ => Except Error (Option Bytes)
  | writeScript _ _ | ping => Except Error Unit
  | store q => q.Answer
  | approve _ => Except Error Approval
  | signingBlock => Except Error (Digest × UInt32)
  | now => Time
  | freshId => Octets 16

abbrev Talk := Dialogue Question Question.Answer

/-- A single question, with its answer. -/
def ask (q : Question) : Talk q.Answer := .question q

def ofFormations : (q : Formations.Question) → Talk q.Answer
  | .canceled => ask .canceled
  | .acquire => ask .acquire
  | .release => ask .release
  | .read key => ask (.readScript key)
  | .write key script => ask (.writeScript key script)

def ofTracker : (q : Tracker.Question) → Talk q.Answer
  | .canceled => ask .canceled
  | .recent count => ask (.node (.recent count))

def ofOracle (s : Formations) : (q : Oracle.Question) → Talk q.Answer
  | .canceled => ask .canceled
  | .store q => ask (.store q)
  | .approve h => ask (.approve h)
  | .signingBlock => ask .signingBlock
  | .formation a => (s.get a).run.via ofFormations
  | .now => ask .now
  | .freshId => ask .freshId

def ofFollower (s : Formations) : (q : Follower.Question) → Talk q.Answer
  | .canceled => ask .canceled
  | .node q => ask (.node q)
  | .observe t => (s.observe t).run.via ofFormations

/-- One poll of a follower. -/
def poll (s : Formations) (session : Follower.Session) :
    Talk (Except Error Nat × Follower.Session) :=
  (Follower.poll.run.run session).via (ofFollower s)

/-! ### Surroundings in memory

The node, the storage and the store can be made to fail, the approver answers what it is told to
and keeps what it was asked, and the clock stands still. -/

/-- Scripts by key, and the reads and writes that are going to fail. -/
structure Storage where
  scripts : List (Bytes × Bytes)
  failingReads : Nat
  failingWrites : Nat
  fault : DatabaseFault

namespace Storage

def empty : Storage := ⟨[], 0, 0, .timeout⟩

def read (key : Bytes) : StateM Storage (Except Error (Option Bytes)) := fun s =>
  match s.failingReads with
  | 0 => (.ok (s.scripts.lookup key), s)
  | n + 1 => (.error (.database s.fault), { s with failingReads := n })

/-- The newest script for a key stands in front. -/
def put (s : Storage) (key script : Bytes) : Storage :=
  { s with scripts := (key, script) :: s.scripts }

def write (key script : Bytes) : StateM Storage (Except Error Unit) := fun s =>
  match s.failingWrites with
  | 0 => (.ok (), s.put key script)
  | n + 1 => (.error (.database s.fault), { s with failingWrites := n })

end Storage

/-- What an approver has been told to answer. -/
inductive Verdict where
  | decide (a : Approval)
  | fail (reason : String)

structure Local where
  node : Node.Memory
  tracker : Tracker
  storage : Storage
  store : Store
  reachable : Bool
  verdict : Verdict
  /-- What the approver was asked, newest first. -/
  asked : List Hook
  canceled : Bool
  now : Time
  /-- How many identifiers were given out. -/
  issued : Nat

namespace Local

/-- The identifiers that are given out, by number. -/
def identifier (n : Nat) : Octets 16 :=
  ⟨(Hash.Sha256.digest (Bytes.littleEndian 8 n)).toList.take 16, by simp [Octets.length_eq]⟩

def storageStep {α : Type} (step : StateM Storage α) : StateM Local α := fun l =>
  let (a, storage) := step l.storage
  (a, { l with storage })

def storeStep {α : Type} (step : StateM Store α) : StateM Local α := fun l =>
  let (a, store) := step l.store
  (a, { l with store })

def judge (h : Hook) : Verdict → Except Error Approval
  | .decide a => .ok a
  | .fail reason => .error (.approver h.name reason)

def answer : (q : Question) → StateM Local q.Answer
  | .canceled => fun l => (l.canceled, l)
  | .node q => fun l => (l.node.answer q, l)
  | .acquire | .release => fun l => ((), l)
  | .readScript key => storageStep (Storage.read key)
  | .writeScript key script => storageStep (Storage.write key script)
  | .store q => storeStep (Store.answer q)
  | .ping => fun l => (if l.reachable then .ok () else .error (.database .timeout), l)
  | .approve h => fun l => (judge h l.verdict, { l with asked := h :: l.asked })
  | .signingBlock => fun l => (l.tracker.signingBlock, l)
  | .now => fun l => (l.now, l)
  | .freshId => fun l => (identifier l.issued, { l with issued := l.issued + 1 })

/-- Runs a dialogue to its end; none if it stops. -/
def run {α : Type} (d : Talk α) : StateM Local (Option α) := d.run answer

/-- Runs a dialogue that changes the tracker. -/
def tracking {α : Type}
    (step : Tracker → Dialogue Tracker.Question Tracker.Question.Answer (Tracker × α)) :
    StateM Local (Option α) := fun l =>
  match run ((step l.tracker).via ofTracker) l with
  | (some (tracker, a), l) => (some a, { l with tracker })
  | (none, l) => (none, l)

/-- One poll of a follower. -/
def poll (s : Formations) (f : Follower) : StateM Local (Option (Except Error Nat × Follower)) :=
  fun l =>
    match run (Service.poll s ⟨f, l.tracker⟩) l with
    | (some (r, session), l) => (some (r, session.follower), { l with tracker := session.tracker })
    | (none, l) => (none, l)

end Local

end Attestor.Service
