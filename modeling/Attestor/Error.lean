import Attestor.Dialogue
import Attestor.Key.Basic
import Attestor.Node.Basic

/-! What can go wrong with a request to the oracle, how it reads, and whether the caller is
to blame or may try again. -/

namespace Attestor

/-- The calls that a cancellation can forestall. -/
inductive Operation where
  | findUser
  | findKeySet
  | createUser
  | updateUser
  | createKeySet
  | approveRegistration
  | approveUpdate
  | approveIdentity
  | approveTransfer
  | signingBlock
  | readFormation
  | writeFormation
  | recentHeaders
  deriving DecidableEq

def Operation.text : Operation → String
  | findUser => "find user"
  | findKeySet => "find key set"
  | createUser => "create user"
  | updateUser => "update user"
  | createKeySet => "create key set"
  | approveRegistration => "approve registration"
  | approveUpdate => "approve identity update"
  | approveIdentity => "approve identity"
  | approveTransfer => "approve transfer"
  | signingBlock => "recent sig hash"
  | readFormation => "read contract formation"
  | writeFormation => "write contract formation"
  | recentHeaders => "request recent headers"

/-- The kinds of records that are looked up. -/
inductive Record where
  | user
  | keySet
  | formation
  deriving DecidableEq

def Record.text : Record → String
  | user => "user"
  | keySet => "key set"
  | formation => "contract formation"

/-- The data that can turn out unreadable. -/
inductive Artifact where
  | headerBatch
  | headerSnapshot
  | storedEntity
  | formation
  deriving DecidableEq

def Artifact.text : Artifact → String
  | headerBatch => "header batch"
  | headerSnapshot => "header snapshot"
  | storedEntity => "stored entity"
  | formation => "contract formation"

/-- How a database failed. -/
inductive DatabaseFault where
  | timeout
  | closed
  | io
  | other
  deriving DecidableEq

inductive Error where
  | notFound (record : Record) (name : String)
  | insufficientHeaders (held need : Nat)
  | canceled (operation : Operation)
  | invalidRequest (reason : String)
  | invalidSignature
  | keySetExists
  | key (fault : Key.Error)
  | chain (fault : Chain.Error)
  | malformed (artifact : Artifact) (reason : String)
  | approver (hook reason : String)
  | node (fault : Node.Error)
  | database (fault : DatabaseFault)
  | serialization
  | snapshot
  deriving DecidableEq

namespace Error

def message : Error → String
  | notFound record name => record.text ++ " not found: " ++ name
  | insufficientHeaders held need =>
    "insufficient confirmed headers: have " ++ toString held ++ ", need " ++ toString need
  | canceled operation => operation.text ++ " canceled"
  | invalidRequest reason => "invalid request: " ++ reason
  | invalidSignature => "signature does not match the registered public key"
  | keySetExists => "key set already registered"
  | key fault => "key error: " ++ fault.message
  | chain fault => "chain data error: " ++ fault.message
  | malformed artifact reason => "malformed " ++ artifact.text ++ ": " ++ reason
  | approver hook reason => "approver " ++ hook ++ " failed: " ++ reason
  | node fault => "header feed error: " ++ fault.message
  | database _ => "database error: "
  | serialization => "serialization error: "
  | snapshot => "snapshot i/o error: "

def isNotFound : Error → Bool
  | notFound _ _ => true
  | _ => false

/-- Whether the same request may succeed later. -/
def isTransient : Error → Bool
  | insufficientHeaders _ _ | node _ => true
  | database fault => fault ≠ .other
  | _ => false

/-- Whether the request itself is at fault. -/
def isClient : Error → Bool
  | invalidRequest _ | invalidSignature | keySetExists | key _ => true
  | _ => false

end Error

/-- Makes a call unless the request was canceled before. -/
def guarded {Q : Type} {R : Q → Type} {α : Type} (canceled : Dialogue Q R Bool)
    (operation : Operation) (call : Dialogue Q R (Except Error α)) :
    ExceptT Error (Dialogue Q R) α := .mk do
  if ← canceled then pure (.error (.canceled operation)) else call

end Attestor
