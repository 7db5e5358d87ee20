import Attestor.Dialogue
import Attestor.Entity
import Attestor.Error
import Attestor.Key.Basic
import Attestor.UserId

/-! Approvers decide about requests before anything is filed or signed. Their note goes back to the
caller in either case. -/

namespace Attestor

structure Approval where
  approved : Bool
  description : String
  deriving DecidableEq, Inhabited

namespace Approval

open Json

def granted : Approval := ⟨true, ""⟩

def fields : List (Member Approval) :=
  [.of "approved" .required Draft.asBool fun a v => { a with approved := v },
    .of "description" .defaulted Draft.asText fun a v => { a with description := v }]

def ofDraft (d : Draft) : Except Fault Approval := Record.read fields ⟨false, ""⟩ d

def ofBytes (b : Bytes) : Except Fault Approval := parse ofDraft b

end Approval

/-- What an approver is asked about. -/
inductive Hook where
  | registration (user : UserId) (entity : Entity) (key : PublicKey)
  | update (user : UserId) (entity : Entity)
  | identity (user : UserId)
  | transfer (contract instrument : String) (user : UserId)
  deriving DecidableEq

namespace Hook

open Json (Value)

def name : Hook → String
  | registration _ _ _ => "registration"
  | update _ _ => "identity/update"
  | identity _ => "identity"
  | transfer _ _ _ => "transfer"

/-- The question as JSON. -/
def toJson : Hook → Value
  | registration user entity key =>
    .object [("user_id", .text (UserId.text user)), ("entity", entity.toJson),
      ("public_key", .text (PublicKey.text key))]
  | update user entity =>
    .object [("user_id", .text (UserId.text user)), ("entity", entity.toJson)]
  | identity user => .object [("user_id", .text (UserId.text user))]
  | transfer contract instrument user =>
    .object [("contract", .text contract), ("instrument_id", .text instrument),
      ("user_id", .text (UserId.text user))]

end Hook

end Attestor

/-! ### Over the wire

Each hook is posted to an address of its own below the approver's. -/

namespace Attestor.Approver

structure Remote where
  /-- The address without a slash at its end. -/
  base : String
  deriving DecidableEq

namespace Remote

/-- The approver at an address, which may end in slashes. -/
def new (url : String) : Remote :=
  ⟨String.ofList ((url.toList.reverse.dropWhile (· = '/')).reverse)⟩

/-- Whether a status says that the request has failed. -/
def isFailure (status : Nat) : Bool := 400 ≤ status && status < 600

def verdict (reply : Option Wire.Reply) : Except String Approval :=
  match reply with
  | none => .error "no connection"
  | some r =>
    if isFailure r.status then .error ("status " ++ toString r.status)
    else (Approval.ofBytes r.body).mapError fun _ => "unreadable answer"

/-- Asks the approver. -/
def ask (a : Remote) (h : Hook) : Wire.Talk (Except Error Approval) := do
  let reply ← Wire.send ⟨a.base ++ "/" ++ h.name, none, h.toJson⟩
  return (verdict reply).mapError (.approver h.name)

end Remote

end Attestor.Approver
