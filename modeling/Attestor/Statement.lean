import Attestor.Address
import Attestor.Chain.Header
import Attestor.Entity
import Attestor.Key.Extended
import Attestor.UserId

/-! What is signed. The oracle signs attestations, which name a recent block; a registered
key signs what its owner asks for. A statement is signed by its digest, the double SHA-256
of its bytes. -/

namespace Attestor

/-- What an administrator is certified for: an entity, or the issuer of a contract. -/
inductive AdminTarget where
  | entity (entity : Entity)
  | contract (address : Address)
  deriving DecidableEq

inductive Statement where
  /-- The key belongs to the entity. -/
  | entityKey (entity : Entity) (key : PublicKey) (block : Digest) (approved : Bool)
  /-- The key set belongs to the entity. -/
  | entityKeys (entity : Entity) (keys : KeySet) (block : Digest) (approved : Bool)
  /-- The address administers the target. -/
  | admin (address : Address) (target : AdminTarget) (block : Digest) (expiration : UInt64)
      (approved : Bool)
  /-- The address may receive the instrument of the contract. -/
  | transfer (contract : Address) (code : Octets 20) (receiver : Address) (block : Digest)
      (expiration : UInt64) (approved : Bool)
  /-- The signer wants to be registered as the entity. -/
  | registration (entity : Entity)
  /-- The user wants the key set to be filed. -/
  | addKeySet (user : UserId) (keys : KeySet) (required : UInt32)
  /-- The user wants to be registered as the entity from now on. -/
  | updateIdentity (user : UserId) (entity : Entity)
  deriving DecidableEq

namespace Statement

def flag (approved : Bool) : Bytes := [if approved then 1 else 0]

def targetBytes : AdminTarget → Bytes
  | .entity e => 0x00 :: e.canonical
  | .contract a => 0x01 :: a.bytes

/-- The fields in order, without anything between them. -/
def bytes : Statement → Bytes
  | entityKey entity key block approved =>
    entity.canonical ++ (PublicKey.bytes key).toList ++ block.toList ++ flag approved
  | entityKeys entity keys block approved =>
    entity.canonical ++ keys.bytes ++ block.toList ++ flag approved
  | admin address target block expiration approved =>
    address.bytes ++ targetBytes target ++ block.toList ++
      Bytes.littleEndian 8 expiration.toNat ++ flag approved
  | transfer contract code receiver block expiration approved =>
    contract.bytes ++ code.toList ++ receiver.bytes ++ block.toList ++
      Bytes.littleEndian 8 expiration.toNat ++ flag approved
  | registration entity => entity.canonical
  | addKeySet user keys required =>
    user.toList ++ keys.bytes ++ Bytes.littleEndian 4 required.toNat
  | updateIdentity user entity => user.toList ++ entity.canonical

def digest (s : Statement) : Digest := Hash.doubleSha256 s.bytes

end Statement

end Attestor
