import Attestor.Address
import Attestor.Entity
import Attestor.Oracle.Basic

/-! What the oracle does for each request: attestations, which name a recent block, and changes of
the store. -/

namespace Attestor.Oracle

/-! ### Attestations

The user is found by the key set, the approver is asked, the claim is compared with what is
registered, and the statement names a block that is deep enough in the chain. -/

/-- Whether a claim is backed, and what to say about it: the approver's note if it is, else
what is wrong. -/
def judge (claimed registered : Entity) (note : String) : Bool × String :=
  match Entity.mismatch? claimed registered with
  | none => (true, note)
  | some m => (false, m.message)

def registered (u : User) : Action Entity := .mk (pure u.registered)

/-- Whether the child of a key belongs to an entity. -/
def verifyKey (entity : Entity) (key : ExtendedKey) (index : UInt32) : Action Attestation := do
  let user ← findOwner (.single key)
  let full ← registered user
  let approval ← identityApproval user.id
  if !approval.approved then return .rejected approval.description
  let (approved, description) := judge entity full approval.description
  let child ← ofKey (key.child? index)
  let (block, height) ← signingBlock
  let hash := (Statement.entityKey entity child.publicKey block approved).digest
  return .signed ⟨hash, height, approved, description⟩ none

/-- Whether a key set belongs to an entity. -/
def verifyKeys (entity : Entity) (keys : KeySet) : Action Attestation := do
  let user ← findOwner keys
  let full ← registered user
  let approval ← identityApproval user.id
  if !approval.approved then return .rejected approval.description
  let (approved, description) := judge entity full approval.description
  let (block, height) ← signingBlock
  let hash := (Statement.entityKeys entity keys block approved).digest
  return .signed ⟨hash, height, approved, description⟩ none

structure AdminRequest where
  keys : KeySet
  index : UInt32
  target : AdminTarget
  expiration : Option UInt64
  deriving DecidableEq

/-- The judgement on what an administrator is to be certified for: an entity that is claimed,
or the issuer that a contract has published. -/
def judgeTarget (target : AdminTarget) (full : Entity) (note : String) : Action (Bool × String) :=
  match target with
  | .entity claimed => pure (judge claimed full note)
  | .contract a => do
    match (← formation a).issuer with
    | some issuer => pure (judge issuer full note)
    | none => pure (false, "Contract formation has no issuer")

/-- The address of the children of a key set, as many of which must sign as of the set. -/
def childAddress (keys : KeySet) (index : UInt32) (required : UInt32) :
    Except Key.Error Address := do
  Address.ofKeys (← keys.children index) required

/-- Certifies the address of the children of a key set as an administrator. -/
def certifyAdmin (o : Oracle) (r : AdminRequest) : Action Attestation := do
  let user ← findOwner r.keys
  let full ← registered user
  let filed ← findKeys r.keys
  let approval ← identityApproval user.id
  if !approval.approved then return .rejected approval.description
  let address ← ofKey (childAddress r.keys r.index filed.required)
  let (approved, description) ← judgeTarget r.target full approval.description
  let (block, height) ← signingBlock
  let expiration ← expiry r.expiration o.identityExpiration
  let hash := (Statement.admin address r.target block expiration approved).digest
  return .signed ⟨hash, height, approved, description⟩ (some expiration)

structure TransferRequest where
  contract : Address
  instrument : Instrument
  keys : KeySet
  index : UInt32
  expiration : Option UInt64
  deriving DecidableEq

/-- Approves that the address of the children of a key set receives an instrument. -/
def approveTransfer (o : Oracle) (r : TransferRequest) : Action Attestation := do
  let user ← findOwner r.keys
  let filed ← findKeys r.keys
  let approval ← approval .approveTransfer
    (.transfer (r.contract.text o.network) r.instrument.text user.id)
  if !approval.approved then return .rejected approval.description
  let (block, height) ← signingBlock
  let address ← ofKey (childAddress r.keys r.index filed.required)
  let expiration ← expiry r.expiration o.transferExpiration
  let hash :=
    (Statement.transfer r.contract r.instrument.code address block expiration true).digest
  return .signed ⟨hash, height, true, approval.description⟩ (some expiration)

/-! ### Changes of the store

Each request carries a signature by the user's registered key, or by the key to be registered,
over a statement of what is asked for. -/

/-- Goes on only if the statement is signed by the key. -/
def demandSignature (s : Statement) (signature : Bytes) (key : PublicKey) : Action Unit :=
  if PublicKey.verifies key s.digest signature then pure () else throw .invalidSignature

/-- Registers an entity under a key. -/
def register (entity : Entity) (key : PublicKey) (signature : Bytes) :
    Action (Decision UserId) := do
  demandSignature (.registration entity) signature key
  let now ← liftM (ask .now)
  let id ← liftM (ask .freshId)
  let approval ← approval .approveRegistration (.registration id entity key)
  if !approval.approved then return .rejected approval.description
  createUser (.new id entity key now)
  return .accepted id

/-- Files a key set for a user. -/
def addKeySet (user : UserId) (keys : KeySet) (required : UInt32) (signature : Bytes) :
    Action FiledKeys := do
  if required = 0 ∨ keys.size < required.toNat then
    throw (.key (.requiredSigners required keys.size))
  let u ← findUser user
  demandSignature (.addKeySet user keys required) signature u.publicKey
  let filed : FiledKeys :=
    ⟨← liftM (ask .freshId), user, keys, required, ← liftM (ask .now)⟩
  fileKeys filed
  return filed

/-- The user for whom a key set is filed. -/
def findUserId (keys : KeySet) : Action UserId := do return (← findOwner keys).id

/-- Replaces the entity of a user. -/
def updateIdentity (user : UserId) (entity : Entity) (signature : Bytes) :
    Action (Decision Unit) := do
  let u ← findUser user
  demandSignature (.updateIdentity user entity) signature u.publicKey
  let approval ← approval .approveUpdate (.update user entity)
  if !approval.approved then return .rejected approval.description
  updateUser (u.setEntity entity (← liftM (ask .now)))
  return .accepted ()

end Attestor.Oracle
