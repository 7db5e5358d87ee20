import Attestor.Dialogue
import Attestor.Json.Record
import Attestor.Node.Basic
import Attestor.Text.Digits

/-! A node that is asked over the wire, by remote procedure calls. A range of headers takes two
messages, one for the hashes and one for the headers; if the chain has changed between them the
range is read again. -/

namespace Attestor.Node

/-! ### Envelopes

A call is answered by a result or an error, and the number of the call. Nodes may answer the
calls of a batch in any order. -/

open Json

/-- An error as the node reports it. -/
structure Failure where
  code : Int
  message : String
  deriving DecidableEq, Inhabited

namespace Failure

def fields : List (Member Failure) :=
  [.of "code" .required Draft.asInt64 fun f v => { f with code := v },
    .of "message" .required Draft.asText fun f v => { f with message := v }]

def ofDraft (d : Draft) : Except Fault Failure := Record.read fields default d

end Failure

structure Envelope (α : Type) where
  result : Option α
  error : Option Failure
  /-- The number of the call, if what the node repeats is a number of 64 bits. -/
  id : Option Nat
  deriving DecidableEq

namespace Envelope

variable {α : Type}

/-- The most arrays and objects that can lie one inside the other in a text of which any
part is kept. -/
def depthLimit : Nat := 127

/-- The number of the call; `outer` arrays and objects lie around it. -/
def asId (outer : Nat) (d : Draft) : Except Fault (Option Nat) :=
  if d.isKept (depthLimit - outer) then
    .ok ((Draft.asNat UInt64.size d).toOption)
  else .error .malformed

def fields (outer : Nat) (value : Draft → Except Fault α) : List (Member (Envelope α)) :=
  [.of "result" .optional (Draft.asOptional value) fun e v => { e with result := v },
    .of "error" .optional (Draft.asOptional Failure.ofDraft) fun e v => { e with error := v },
    .of "id" .defaulted (asId (outer + 1)) fun e v => { e with id := v }]

/-- Reads the envelope of a result; `outer` arrays and objects lie around it. -/
def ofDraft (outer : Nat) (value : Draft → Except Fault α) (d : Draft) :
    Except Fault (Envelope α) := Record.read (fields outer value) ⟨none, none, none⟩ d

/-- An error counts more than a result. -/
def outcome (method : String) (e : Envelope α) : Except Error α :=
  match e.error, e.result with
  | some f, _ => .error (.rpc method f.code f.message)
  | none, some a => .ok a
  | none, none => .error (.emptyResult method)

/-- Puts an envelope into the slot of its call, over one that came before it. -/
def file (slots : Array (Option (Envelope α))) (e : Envelope α) : Array (Option (Envelope α)) :=
  match e.id with
  | some i => slots.setIfInBounds i (some e)
  | none => slots

/-- The envelopes of `count` calls, by the number of the call. -/
def slots (count : Nat) (es : List (Envelope α)) : Array (Option (Envelope α)) :=
  es.foldl file (Array.replicate count none)

/-- The results of `count` calls in order, or the first failure. -/
def gather (method : String) (count : Nat) (es : List (Envelope α)) : Except Error (List α) :=
  (slots count es).toList.mapM fun
    | some e => e.outcome method
    | none => .error (.emptyResult method)

end Envelope

end Attestor.Node

/-! ### Calls -/

namespace Attestor.Node

open Json (Value Draft)

structure Client where
  url : String
  user : Option String
  password : Option String
  deriving DecidableEq

namespace Client

abbrev Action := ExceptT Error Wire.Talk

variable {α : Type}

def orFail (r : Except Error α) : Action α := .mk (pure r)

/-- User and password, if there is a user. -/
def authorization (c : Client) : Option String := c.user.map fun user =>
  "Basic " ++ Text.Base64.encode (Text.utf8 (user ++ ":" ++ c.password.getD ""))

/-- Sends a document and reads what comes back, whatever its status. -/
def exchange (c : Client) (body : Value) (read : Draft → Except Json.Fault α) : Action α := do
  match ← liftM (Wire.send ⟨c.url, c.authorization, body⟩) with
  | none => throw (.http .request)
  | some reply =>
    match Json.parse read reply.body with
    | .ok a => pure a
    | .error _ => throw (.http .decode)

/-- The document that asks for a call. -/
def callBody (id : Value) (method : String) (params : List Value) : Value :=
  .object [("id", id), ("jsonrpc", .text "1.0"), ("method", .text method),
    ("params", .array params)]

def call (c : Client) (method : String) (params : List Value)
    (value : Draft → Except Json.Fault α) : Action α := do
  let e ← c.exchange (callBody (.text "identity-oracle") method params) (Envelope.ofDraft 0 value)
  orFail (e.outcome method)

/-- Makes the same call with several parameters in one message. Nothing is sent if there
are none. -/
def batch (c : Client) (method : String) (params : List (List Value))
    (value : Draft → Except Json.Fault α) : Action (List α) := do
  if params.isEmpty then return []
  let es ← c.exchange (.array (params.mapIdx fun i p => callBody (.ofNat i) method p))
    (Draft.asList (Envelope.ofDraft 1 value))
  orFail (Envelope.gather method params.length es)

def ofHex (s : String) : Except Chain.Error Bytes := (Text.Hex.decode s).mapError .hex

def orChain (r : Except Chain.Error α) : Action α := orFail (r.mapError .chain)

def tip (c : Client) : Action UInt32 := c.call "getblockcount" [] Draft.asUInt32

def hashAt (c : Client) (height : UInt32) : Action Digest := do
  orChain (Digest.parse (← c.call "getblockhash" [.ofNat height.toNat] Draft.asText))

def block (c : Client) (id : Digest) : Action Block := do
  let raw ← c.call "getblock" [.text (Digest.text id), .ofNat 0] Draft.asText
  orChain (ofHex raw >>= Block.ofBytes)

/-- The hashes at heights. -/
def hashesAt (c : Client) (heights : List Nat) : Action (List Digest) := do
  let raw ← c.batch "getblockhash" (heights.map fun h => [.ofNat h]) Draft.asText
  orChain (raw.mapM Digest.parse)

/-- The headers of blocks. -/
def headersOf (c : Client) (ids : List Digest) : Action (List Header) := do
  let raw ← c.batch "getblockheader" (ids.map fun d => [.text (Digest.text d), .bool false])
    Draft.asText
  orChain (raw.mapM fun s => ofHex s >>= Header.ofBytes)

/-- Whether headers have the hashes, and each follows the one before it. -/
def agrees (ids : List Digest) (headers : List Header) : Bool :=
  headers.map Header.id = ids && (Header.unlinked? headers).isNone

/-- Heights from one to another, both included. -/
def heights (first last : UInt32) : List Nat :=
  List.range' first.toNat (last.toNat + 1 - first.toNat)

/-- Reads a range, trying so many times. -/
def range (c : Client) (first last : UInt32) : (attempts : Nat) → Action HeaderBatch
  | 0 => throw (.unavailable ("chain kept changing while reading heights " ++
      toString first.toNat ++ "..=" ++ toString last.toNat))
  | attempts + 1 => do
    let ids ← c.hashesAt (heights first last)
    let headers ← c.headersOf ids
    if agrees ids headers then pure ⟨first, headers⟩ else range c first last attempts

/-- How many times a range is read before the chain is said to change too often. -/
def attempts : Nat := 3

def headers (c : Client) (first last : UInt32) : Action HeaderBatch := c.range first last attempts

/-- The newest headers; nothing is sent if none are wanted. -/
def recent (c : Client) (count : Nat) : Action HeaderBatch := do
  if count = 0 then return default
  let tip ← c.tip
  c.headers (.ofNat (tip.toNat - (count - 1))) tip

def answer (c : Client) : (q : Question) → Wire.Talk q.Answer
  | .tip => c.tip.run
  | .hashAt height => (c.hashAt height).run
  | .headers first last => (c.headers first last).run
  | .block id => (c.block id).run
  | .recent count => (c.recent count).run

end Client

end Attestor.Node
