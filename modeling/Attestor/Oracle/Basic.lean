import Attestor.Approver
import Attestor.Formation
import Attestor.Key.Basic
import Attestor.Statement
import Attestor.Store

/-! The oracle's own data, what it answers with, and what it asks of others while it works
on a request: the store, the approver, the tracker, the filed formations and the clock. -/

namespace Attestor

structure Oracle where
  key : SigningKey
  contract : Option Address
  network : Network
  /-- How long transfer approvals are valid, in seconds. -/
  transferExpiration : UInt64
  /-- How long administrator certificates are valid, in seconds. -/
  identityExpiration : UInt64

/-- The digest that is signed, and what a caller needs to know to make the same one. -/
structure SignatureHash where
  hash : Digest
  /-- The height of the block that is named in what is signed. -/
  height : UInt32
  approved : Bool
  description : String
  deriving DecidableEq

/-- The answer to a request for an attestation. -/
inductive Attestation where
  /-- A digest to be signed, which may still say that the claim was not approved, and for
  certificates that expire, when they do, in nanoseconds since 1970. -/
  | signed (hash : SignatureHash) (expiration : Option UInt64)
  /-- The approver refused, and nothing is signed. -/
  | rejected (description : String)
  deriving DecidableEq

/-- The answer to a request that changes the store. -/
inductive Decision (α : Type) where
  | accepted (a : α)
  | rejected (description : String)
  deriving DecidableEq

namespace Oracle

/-- The signature of an attestation by the oracle's key. -/
def sign (o : Oracle) (h : SignatureHash) : Bytes := o.key.sign h.hash

inductive Question where
  | canceled
  | store (q : Store.Question)
  | approve (h : Hook)
  /-- The block to sign against, and its height. -/
  | signingBlock
  | formation (a : Address)
  | now
  /-- An identifier that was not used before. -/
  | freshId
  deriving DecidableEq

abbrev Question.Answer : Question → Type
  | canceled => Bool
  | store q => q.Answer
  | approve _ => Except Error Approval
  | signingBlock => Except Error (Digest × UInt32)
  | formation _ => Except Error Formation
  | now => Time
  | freshId => Octets 16

abbrev Action := ExceptT Error (Dialogue Question Question.Answer)

/-- A single question, with its answer. -/
def ask (q : Question) : Dialogue Question Question.Answer q.Answer := .question q

def findUser (id : UserId) : Action User :=
  guarded (ask .canceled) .findUser (ask (.store (.findUser id)))

def findOwner (keys : KeySet) : Action User :=
  guarded (ask .canceled) .findUser (ask (.store (.findOwner keys)))

def findKeys (keys : KeySet) : Action FiledKeys :=
  guarded (ask .canceled) .findKeySet (ask (.store (.findKeys keys)))

def createUser (u : User) : Action Unit :=
  guarded (ask .canceled) .createUser (ask (.store (.createUser u)))

def updateUser (u : User) : Action Unit :=
  guarded (ask .canceled) .updateUser (ask (.store (.updateUser u)))

def fileKeys (f : FiledKeys) : Action Unit :=
  guarded (ask .canceled) .createKeySet (ask (.store (.fileKeys f)))

def approval (operation : Operation) (h : Hook) : Action Approval :=
  guarded (ask .canceled) operation (ask (.approve h))

def identityApproval (user : UserId) : Action Approval := approval .approveIdentity (.identity user)

def signingBlock : Action (Digest × UInt32) :=
  guarded (ask .canceled) .signingBlock (ask .signingBlock)

def formation (a : Address) : Action Formation := .mk (ask (.formation a))

def ofKey {α : Type} (r : Except Key.Error α) : Action α :=
  match r with
  | .ok a => pure a
  | .error e => throw (.key e)

/-- So many seconds from now in nanoseconds since 1970, or the last number there is. -/
def timeAfter (now : Time) (seconds : UInt64) : UInt64 :=
  let last := UInt64.size - 1
  .ofNat (min (now.stamp.toNat + min (seconds.toNat * 1000000000) last) last)

/-- The time that was asked for, else one so many seconds from now. -/
def expiry (asked : Option UInt64) (seconds : UInt64) : Action UInt64 :=
  match asked with
  | some t => pure t
  | none => do return timeAfter (← liftM (ask .now)) seconds

end Oracle

end Attestor
