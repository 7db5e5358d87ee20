import Attestor.Tracker

/-! The follower walks the node's best chain. A poll fetches at most one batch of headers,
hands it to the tracker, and hands the transactions of its blocks on, one by one. When the
last block that was delivered is no longer in the chain, the walk goes back by as many
blocks as the tracker holds. -/

namespace Attestor

structure Follower where
  maxBatch : UInt32
  /-- The height to start at when the tracker knows nothing. -/
  start : Option UInt32
  /-- The next height to fetch. -/
  next : Option UInt32
  /-- The last block that was delivered. -/
  last : Option (UInt32 × Digest)
  inSync : Bool
  deriving DecidableEq

namespace Follower

open HeaderBatch (Overflow heightAfter)

/-- A follower that has delivered nothing; batches hold at least one header. -/
def new (maxBatch : UInt32) (start : Option UInt32) : Follower :=
  ⟨max maxBatch 1, start, none, none, false⟩

inductive Question where
  | canceled
  | node (q : Node.Question)
  /-- Hands on a transaction. -/
  | observe (t : Transaction)
  deriving DecidableEq

abbrev Question.Answer : Question → Type
  | canceled => Bool
  | node q => q.Answer
  | observe _ => Except Error Nat

/-- The follower and the tracker that it feeds. -/
structure Session where
  follower : Follower
  tracker : Tracker

/-- A step of a poll; what it changed before it failed stays changed. -/
abbrev Poll := ExceptT Error (StateT Session (Dialogue Question Question.Answer))

/-- A single question, with its answer. -/
def single (q : Question) : Dialogue Question Question.Answer q.Answer := .question q

def ask (q : Question) : Poll q.Answer := liftM (single q)

def orFail {α : Type} (r : Except Node.Error α) : Poll α :=
  match r with
  | .ok a => pure a
  | .error e => throw (.node e)

def orHalt {α : Type} (r : Except Overflow α) : Poll α :=
  liftM (Dialogue.ofExcept r : Dialogue Question Question.Answer α)

def change (f : Follower → Follower) : Poll Unit :=
  modify fun s => { s with follower := f s.follower }

/-- The tracker's questions in the follower's words. -/
def ofTracker : (q : Tracker.Question) → Dialogue Question Question.Answer q.Answer
  | .canceled => single .canceled
  | .recent count => single (.node (.recent count))

/-- Where to start: behind the tracker's newest block, else at the height that was set,
else `offset` blocks before the end of the chain. -/
def resume (tip : UInt32) : Poll UInt32 := do
  let s ← get
  match s.tracker.window.tip? with
  | some (d, height) =>
    change fun f => { f with last := some (height, d) }
    orHalt (heightAfter height 1)
  | none =>
    match s.follower.start with
    | some start => pure start
    | none =>
      let above ← orHalt (heightAfter tip 1)
      pure (.ofNat (above.toNat - s.tracker.offset % UInt32.size))

/-- Goes back if the last block that was delivered has left the chain. -/
def rewound (tip next : UInt32) : Poll UInt32 := do
  let s ← get
  match s.follower.last with
  | none => pure next
  | some (height, d) =>
    if tip < height then pure next
    else if (← orFail (← ask (.node (.hashAt height)))) = d then pure next
    else
      change fun f => { f with inSync := false }
      pure (.ofNat (height.toNat - (s.tracker.offset % UInt32.size - 1)))

/-- Hands on the transactions of a block. A failure ends the poll only if the service is
shutting down. -/
def observeAll : List Transaction → Poll Unit
  | [] => pure ()
  | t :: rest => do
    match ← ask (.observe t) with
    | .ok _ => observeAll rest
    | .error e => if ← ask .canceled then throw e else observeAll rest

def observeBlocks : List Digest → Poll Unit
  | [] => pure ()
  | d :: rest => do
    let block ← orFail (← ask (.node (.block d)))
    observeAll block.transactions
    observeBlocks rest

def deliver (b : HeaderBatch) : Poll Unit := do
  let s ← get
  let t ← liftM (s.tracker.handle b |>.via ofTracker)
  modify fun s => { s with tracker := t }

/-- Delivers at most one batch, and tells how many headers it held. -/
def poll : Poll Nat := do
  let tip ← orFail (← ask (.node .tip))
  let next ← match (← get).follower.next with
    | some next => pure next
    | none => resume tip
  let next ← rewound tip next
  if tip < next then
    change fun f => { f with next := some next, inSync := true }
    pure 0
  else
    let maxBatch := (← get).follower.maxBatch
    let last : UInt32 := .ofNat (min tip.toNat (next.toNat + (maxBatch.toNat - 1)))
    let batch ← orFail (← ask (.node (.headers next last)))
    let ids := batch.ids
    deliver batch
    observeBlocks ids
    match ids.getLast? with
    | some d => change fun f => { f with last := some (last, d) }
    | none => pure ()
    let following ← orHalt (heightAfter last 1)
    change fun f => { f with next := some following }
    if last = tip then change fun f => { f with inSync := true }
    pure ids.length

end Follower

end Attestor
