import Attestor.Chain.Header
import Attestor.Json.Record
import Attestor.Json.Value

/-! Legal entities: who someone is, where, and who acts for them. An empty text leaves a detail
open. Signatures cover the canonical bytes of an entity, in which every text has its length and
every list its count in front. -/

namespace Attestor

/-- A person who administers or manages an entity, with the number of the role. -/
structure Officer where
  role : UInt32
  name : String
  deriving DecidableEq, Inhabited

structure Entity where
  name : String
  kind : String
  lei : String
  unitNumber : String
  buildingNumber : String
  street : String
  suburb : String
  territory : String
  country : String
  postalCode : String
  email : String
  phone : String
  administration : List Officer
  management : List Officer
  domainName : String
  paymail : String
  deriving DecidableEq, Inhabited

namespace Entity

/-- The entity of which nothing is told. -/
def empty : Entity := ⟨"", "", "", "", "", "", "", "", "", "", "", "", [], [], "", ""⟩

/-- The details in front of the lists of officers, in order. -/
def leading (e : Entity) : List String :=
  [e.name, e.kind, e.lei, e.unitNumber, e.buildingNumber, e.street, e.suburb, e.territory,
    e.country, e.postalCode, e.email, e.phone]

/-- The details behind the lists of officers, in order. -/
def trailing (e : Entity) : List String := [e.domainName, e.paymail]

/-- A text after the number of its bytes. -/
def textBytes (s : String) : Bytes :=
  let b := Text.utf8 s
  Chain.compact b.length ++ b

def officerBytes (o : Officer) : Bytes := Bytes.littleEndian 4 o.role.toNat ++ textBytes o.name

/-- Officers after their number. -/
def officersBytes (os : List Officer) : Bytes := Chain.compact os.length ++ os.flatMap officerBytes

/-- The bytes that signatures over an entity cover. -/
def canonical (e : Entity) : Bytes :=
  e.leading.flatMap textBytes ++ officersBytes e.administration ++ officersBytes e.management ++
    e.trailing.flatMap textBytes

end Entity

/-! ### JSON

One member for each detail, in order. When an entity is read, details that are left out are
open. -/

open Json

namespace Officer

def toJson (o : Officer) : Value :=
  .object [("type", .ofNat o.role.toNat), ("name", .text o.name)]

def fields : List (Member Officer) :=
  [.of "type" .defaulted Draft.asUInt32 fun o v => { o with role := v },
    .of "name" .defaulted Draft.asText fun o v => { o with name := v }]

def ofDraft (d : Draft) : Except Fault Officer := Record.read fields ⟨0, ""⟩ d

end Officer

namespace Entity

def toJson (e : Entity) : Value :=
  .object
    [("name", .text e.name), ("type", .text e.kind), ("lei", .text e.lei),
      ("unit_number", .text e.unitNumber), ("building_number", .text e.buildingNumber),
      ("street", .text e.street), ("suburb_city", .text e.suburb),
      ("territory_state_province_code", .text e.territory), ("country_code", .text e.country),
      ("postal_zip_code", .text e.postalCode), ("email_address", .text e.email),
      ("phone_number", .text e.phone),
      ("administration", .array (e.administration.map Officer.toJson)),
      ("management", .array (e.management.map Officer.toJson)),
      ("domain_name", .text e.domainName), ("paymail_handle", .text e.paymail)]

/-- A field that holds a text and may be left out. -/
def detail (name : String) (put : Entity → String → Entity) : Member Entity :=
  .of name .defaulted Draft.asText put

def fields : List (Member Entity) :=
  [detail "name" fun e v => { e with name := v },
    detail "type" fun e v => { e with kind := v },
    detail "lei" fun e v => { e with lei := v },
    detail "unit_number" fun e v => { e with unitNumber := v },
    detail "building_number" fun e v => { e with buildingNumber := v },
    detail "street" fun e v => { e with street := v },
    detail "suburb_city" fun e v => { e with suburb := v },
    detail "territory_state_province_code" fun e v => { e with territory := v },
    detail "country_code" fun e v => { e with country := v },
    detail "postal_zip_code" fun e v => { e with postalCode := v },
    detail "email_address" fun e v => { e with email := v },
    detail "phone_number" fun e v => { e with phone := v },
    .of "administration" .defaulted (Draft.asList Officer.ofDraft)
      fun e v => { e with administration := v },
    .of "management" .defaulted (Draft.asList Officer.ofDraft)
      fun e v => { e with management := v },
    detail "domain_name" fun e v => { e with domainName := v },
    detail "paymail_handle" fun e v => { e with paymail := v }]

def ofDraft (d : Draft) : Except Fault Entity := Record.read fields empty d

/-- The stored form of an entity: its JSON text. -/
def bytes (e : Entity) : Bytes := e.toJson.bytes

def ofBytes (b : Bytes) : Except Fault Entity := parse ofDraft b

end Entity

end Attestor

/-! ### Claims

A claim about an entity is backed if every detail that is claimed is the registered one, and
every officer that is claimed is among the registered ones. -/

namespace Attestor.Entity

/-- What a claim gets wrong first; officers are counted from zero in the claim. -/
inductive Mismatch where
  | detail (label : String)
  | administrator (index : Nat)
  | manager (index : Nat)
  deriving DecidableEq

def Mismatch.message : Mismatch → String
  | .detail label => label ++ " doesn't match"
  | .administrator index => "Administrator " ++ toString index
  | .manager index => "Manager " ++ toString index

def leadingLabels : List String :=
  ["Name", "Type", "LEI", "UnitNumber", "BuildingNumber", "Street", "SuburbCity",
    "TerritoryStateProvinceCode", "CountryCode", "PostalZIPCode", "EmailAddress", "PhoneNumber"]

def trailingLabels : List String := ["DomainName", "PaymailHandle"]

/-- The label of the first detail that is claimed and not backed. -/
def mismatchedDetail? (labels sub full : List String) : Option String :=
  ((labels.zip (sub.zip full)).find? fun (_, s, f) => s ≠ "" && s ≠ f).map Prod.fst

/-- The index of the first officer that is claimed and not backed. -/
def missingOfficer? (sub full : List Officer) : Option Nat := sub.findIdx? (· ∉ full)

/-- The first fault of a claim about an entity: leading details, administrators, managers,
then the other details. -/
def mismatch? (sub full : Entity) : Option Mismatch :=
  (mismatchedDetail? leadingLabels sub.leading full.leading).map .detail
    <|> (missingOfficer? sub.administration full.administration).map .administrator
    <|> (missingOfficer? sub.management full.management).map .manager
    <|> (mismatchedDetail? trailingLabels sub.trailing full.trailing).map .detail

end Attestor.Entity
