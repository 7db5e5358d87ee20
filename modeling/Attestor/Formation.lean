import Attestor.Chain.Script
import Attestor.Entity

/-! Contract formations: the published terms of a contract. They are carried by an output
that pushes a protocol name, an action code and the terms as JSON after a return. -/

namespace Attestor

structure Formation where
  name : String
  kind : String
  issuer : Option Entity
  revision : UInt32
  /-- Nanoseconds since 1970. -/
  timestamp : UInt64
  deriving DecidableEq, Inhabited

namespace Formation

open Json

def empty : Formation := ⟨"", "", none, 0, 0⟩

def toJson (f : Formation) : Value :=
  .object
    [("contract_name", .text f.name), ("contract_type", .text f.kind),
      ("issuer", match f.issuer with | some e => e.toJson | none => .null),
      ("contract_revision", .ofNat f.revision.toNat), ("timestamp", .ofNat f.timestamp.toNat)]

def fields : List (Member Formation) :=
  [.of "contract_name" .defaulted Draft.asText fun f v => { f with name := v },
    .of "contract_type" .defaulted Draft.asText fun f v => { f with kind := v },
    .of "issuer" .defaulted (Draft.asOptional Entity.ofDraft) fun f v => { f with issuer := v },
    .of "contract_revision" .defaulted Draft.asUInt32 fun f v => { f with revision := v },
    .of "timestamp" .defaulted Draft.asUInt64 fun f v => { f with timestamp := v }]

def ofDraft (d : Draft) : Except Fault Formation := Record.read fields empty d

def ofBytes (b : Bytes) : Except Fault Formation := parse ofDraft b

/-- Why a script is not a contract formation, or why one cannot be written. -/
inductive Error where
  | notAction
  | wrongProtocol
  | otherAction (code : Bytes)
  | payload (fault : Fault)
  | tooLarge
  deriving DecidableEq

def Error.message : Error → String
  | .notAction => "not an action output"
  | .wrongProtocol => "wrong protocol id"
  | .otherAction code => "action " ++ Text.lossy code ++ " is not a contract formation"
  | .payload _ => "invalid contract formation payload: "
  | .tooLarge => "contract formation too large: "

/-- The protocol name on chains for tests and on others. -/
def protocolId (isTest : Bool) : Bytes := Text.utf8 (if isTest then "test.TKN" else "TKN")

/-- The action code of contract formations. -/
def actionCode : Bytes := Text.utf8 "C2"

/-- The script of an output that carries the formation. -/
def toScript (f : Formation) (isTest : Bool) : Except Error Bytes :=
  match Script.ofReturn [protocolId isTest, actionCode, f.toJson.bytes] with
  | .ok script => .ok script
  | .error _ => .error .tooLarge

/-- Reads the script of an output. -/
def ofScript (script : Bytes) (isTest : Bool) : Except Error Formation :=
  match Script.returnPushes script with
  | some [protocol, code, payload] =>
    if protocol ≠ protocolId isTest then .error .wrongProtocol
    else if code ≠ actionCode then .error (.otherAction code)
    else (ofBytes payload).mapError .payload
  | _ => .error .notAction

end Formation

end Attestor
