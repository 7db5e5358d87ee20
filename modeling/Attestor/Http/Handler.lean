import Attestor.Http.Form
import Attestor.Http.Message
import Attestor.Oracle.Requests
import Attestor.Service

/-! What the service does for each kind of request, once the body has the right shape. The
texts in it are read first, in a fixed order, then the oracle is asked. -/

namespace Attestor.Http

open Json (Value)
open Service (Talk)

/-- The oracle, and the formations that it looks up. -/
structure Site where
  oracle : Oracle
  formations : Formations

/-- A step of a handler, which may refuse the request. -/
abbrev Handler := ExceptT Refusal Talk

namespace Handler

def ofKey {α : Type} (r : Except Key.Error α) : Handler α :=
  match r with
  | .ok a => pure a
  | .error e => throw (.ofKeyError e)

/-- Lets the oracle act. -/
def act {α : Type} (site : Site) (a : Oracle.Action α) : Handler α := do
  match ← liftM (a.run.via (Service.ofOracle site.formations)) with
  | .ok a => pure a
  | .error e => throw (.ofError e)

/-- Goes on only if the fields are within bounds. -/
def check (faults : List FieldFault) : Handler Unit :=
  if faults.isEmpty then pure () else throw ⟨422, FieldFault.message faults⟩

/-- The bytes of a signature. -/
def signature (s : String) : Handler Bytes :=
  match Text.Hex.decode (Text.trim s) with
  | .ok b => pure b
  | .error fault => throw (.ofError (.invalidRequest ("signature: " ++ fault.message)))

/-- The number under which the signature algorithm is reported. -/
def algorithm : Nat := 1

/-- An attestation with its signature; a refusal has neither. -/
def attestation (o : Oracle) : Attestation → Value
  | .signed h expiration =>
    .object
      ([("approved", .bool h.approved), ("description", .text h.description),
        ("algorithm", .ofNat algorithm), ("signature", .text (Text.Hex.encode (o.sign h))),
        ("block_height", .ofNat h.height.toNat)] ++
        (expiration.map fun t => ("expiration", Value.ofNat t.toNat)).toList)
  | .rejected description =>
    .object [("approved", .bool false), ("status", .text "rejected"),
      ("description", .text description)]

/-- The outcome of a registration or an update. -/
def decision (approved : Bool) (status description : String) (user : Option UserId) : Value :=
  .object ([("approved", .bool approved), ("status", .text status),
    ("description", .text description)] ++
    (user.map fun id => ("user_id", Value.text (UserId.text id))).toList)

def identity (site : Site) : Value :=
  .object [("public_key", .text (PublicKey.text site.oracle.key.publicKey)),
    ("contract_address", .ofText? (site.oracle.contract.map (Address.text site.oracle.network)))]

def register (site : Site) (f : RegisterForm) : Handler Value := do
  check f.faults
  let key ← ofKey (PublicKey.parse f.publicKey)
  let signature ← signature f.signature
  match ← act site (Oracle.register f.entity key signature) with
  | .accepted id => return decision true "registered" "" (some id)
  | .rejected description => return decision false "rejected" description none

def addKeys (site : Site) (f : AddKeysForm) : Handler Value := do
  check f.faults
  let keys ← ofKey (KeySet.parse f.keys)
  let signature ← signature f.signature
  let filed ← act site (Oracle.addKeySet f.user keys f.required signature)
  return .object [("id", .text (UserId.text filed.id)), ("user_id", .text (UserId.text filed.user)),
    ("required_signers", .ofNat filed.required.toNat)]

def findUser (site : Site) (f : FindUserForm) : Handler Value := do
  check f.faults
  let keys ← ofKey (KeySet.parse f.keys)
  let id ← act site (Oracle.findUserId keys)
  return .object [("user_id", .text (UserId.text id))]

def update (site : Site) (f : UpdateForm) : Handler Value := do
  check f.faults
  let signature ← signature f.signature
  match ← act site (Oracle.updateIdentity f.user f.entity signature) with
  | .accepted () => return decision true "updated" "" (some f.user)
  | .rejected description => return decision false "rejected" description none

def verifyKey (site : Site) (f : VerifyKeyForm) : Handler Value := do
  check f.faults
  let key ← ofKey (ExtendedKey.parse f.key)
  return attestation site.oracle (← act site (Oracle.verifyKey f.entity key f.index))

def verifyKeys (site : Site) (f : VerifyKeysForm) : Handler Value := do
  check f.faults
  let keys ← ofKey (KeySet.parse f.keys)
  return attestation site.oracle (← act site (Oracle.verifyKeys f.entity keys))

/-- A certificate is for an entity or for a contract, not for both and not for neither. -/
def target (site : Site) (f : AdminForm) : Handler AdminTarget :=
  match f.entity, f.contract with
  | some e, none => pure (.entity e)
  | none, some c => do return .contract (← ofKey (Address.parse site.oracle.network c))
  | _, _ =>
    throw (.ofError (.invalidRequest "exactly one of entity and entity_contract is required"))

def verifyAdmin (site : Site) (f : AdminForm) : Handler Value := do
  check f.faults
  let keys ← ofKey (KeySet.parse f.keys)
  let target ← target site f
  return attestation site.oracle
    (← act site (site.oracle.certifyAdmin ⟨keys, f.index, target, f.expiration⟩))

def transfer (site : Site) (f : TransferForm) : Handler Value := do
  check f.faults
  let contract ← ofKey (Address.parse site.oracle.network f.contract)
  let instrument ← ofKey (Instrument.parse f.instrument)
  let keys ← ofKey (KeySet.parse f.keys)
  return attestation site.oracle
    (← act site (site.oracle.approveTransfer ⟨contract, instrument, keys, f.index, f.expiration⟩))

/-- Whether the store can be reached and there are blocks to sign against. -/
def health : Talk Response := do
  let up := (← Service.ask .ping).isOk
  let ready := (← Service.ask .signingBlock).isOk
  let ok := up && ready
  return ⟨if ok then 200 else 503, .json (success (.object
    [("status", .text (if ok then "ok" else "degraded")),
      ("database", .text (if up then "up" else "down")),
      ("headers", .text (if ready then "ready" else "syncing"))]))⟩

end Handler

end Attestor.Http
