import Attestor.Http.Handler
import Attestor.Http.Message

/-! Which handler a request reaches. An unknown path is not found, a known one answers to
one method only, and the body must be JSON of the handler's shape. -/

namespace Attestor.Http

open Service (Talk)

inductive Endpoint where
  | health
  | identity
  | register
  | addKeys
  | findUser
  | update
  | verifyKey
  | verifyKeys
  | verifyAdmin
  | transfer
  deriving DecidableEq

namespace Endpoint

def paths : List (String × Endpoint) :=
  [("/health", health), ("/oracle/id", identity), ("/oracle/register", register),
    ("/oracle/addXPub", addKeys), ("/oracle/user", findUser), ("/oracle/updateIdentity", update),
    ("/identity/verifyPubKey", verifyKey), ("/identity/verifyXPub", verifyKeys),
    ("/identity/verifyAdmin", verifyAdmin), ("/transfer/approve", transfer)]

/-- Whether the endpoint is read, not written to. -/
def isRead : Endpoint → Bool
  | health | identity => true
  | _ => false

end Endpoint

/-- The most bytes that a body may have. -/
def bodyLimit : Nat := 2097152

/-- Reads the body and lets a handler answer. -/
def accept {α : Type} (read : Json.Draft → Except Json.Fault α) (handle : α → Handler Json.Value)
    (r : Request) : Talk Response :=
  if !((r.contentType.map MediaType.isJson).getD false) then
    pure ⟨415, .text "Expected request with a JSON content type"⟩
  else if bodyLimit < r.body.length then pure ⟨413, .text "The body is too large"⟩
  else
    match Json.parseFirst read r.body with
    | .error .malformed => pure ⟨400, .text "Failed to parse the request body as JSON"⟩
    | .error .mismatched =>
      pure ⟨422, .text "Failed to deserialize the JSON body into the target type"⟩
    | .ok a => do
      match ← (handle a).run with
      | .ok data => return ⟨200, .json (success data)⟩
      | .error refusal => return refusal.response

/-- Lets the endpoint answer. -/
def dispatch (site : Site) (r : Request) : Endpoint → Talk Response
  | .health => Handler.health
  | .identity => pure ⟨200, .json (success (Handler.identity site))⟩
  | .register => accept RegisterForm.ofDraft (Handler.register site) r
  | .addKeys => accept AddKeysForm.ofDraft (Handler.addKeys site) r
  | .findUser => accept FindUserForm.ofDraft (Handler.findUser site) r
  | .update => accept UpdateForm.ofDraft (Handler.update site) r
  | .verifyKey => accept VerifyKeyForm.ofDraft (Handler.verifyKey site) r
  | .verifyKeys => accept VerifyKeysForm.ofDraft (Handler.verifyKeys site) r
  | .verifyAdmin => accept AdminForm.ofDraft (Handler.verifyAdmin site) r
  | .transfer => accept TransferForm.ofDraft (Handler.transfer site) r

/-- Answers a request. A request for the head of a resource that can be read is answered
without the body. -/
def serve (site : Site) (r : Request) : Talk Response :=
  match Endpoint.paths.lookup r.path with
  | none => pure ⟨404, .none⟩
  | some e =>
    if e.isRead then
      if r.method = "GET" then dispatch site r e
      else if r.method = "HEAD" then do return { ← dispatch site r e with body := .none }
      else pure ⟨405, .none⟩
    else if r.method = "POST" then dispatch site r e
    else pure ⟨405, .none⟩

end Attestor.Http
