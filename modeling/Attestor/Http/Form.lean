import Attestor.Entity
import Attestor.UserId

/-! The bodies of requests. Reading one checks its shape; the faults of its fields, which
are lengths and ranges, are found afterwards and listed by the fields' names. -/

namespace Attestor.Http

open Json

/-- A field whose value is out of bounds, and which bound that is. -/
structure FieldFault where
  field : String
  bound : String
  deriving DecidableEq

namespace FieldFault

/-- The fault of a text whose number of characters is not allowed. -/
def length (field : String) (allowed : Nat → Bool) (s : String) : List FieldFault :=
  if allowed s.length then [] else [⟨field, "length"⟩]

def range (field : String) (allowed : Nat → Bool) (n : Nat) : List FieldFault :=
  if allowed n then [] else [⟨field, "range"⟩]

/-- A signature in hexadecimal digits. -/
def signature : String → List FieldFault := length "signature" fun n => 16 ≤ n && n ≤ 146

def nonempty (field : String) : String → List FieldFault := length field (1 ≤ ·)

def message (faults : List FieldFault) : String :=
  "Validation error: " ++ ", ".intercalate (faults.map fun f => f.field ++ ":" ++ f.bound)

end FieldFault

def asUserId (d : Draft) : Except Fault UserId := do
  match UserId.parse? (← d.asText) with
  | some id => pure id
  | none => throw .mismatched

structure RegisterForm where
  entity : Entity
  publicKey : String
  signature : String

namespace RegisterForm

def fields : List (Member RegisterForm) :=
  [.of "entity" .required Entity.ofDraft fun f v => { f with entity := v },
    .of "public_key" .required Draft.asText fun f v => { f with publicKey := v },
    .of "signature" .required Draft.asText fun f v => { f with signature := v }]

def ofDraft (d : Draft) : Except Fault RegisterForm := Record.read fields ⟨.empty, "", ""⟩ d

def faults (f : RegisterForm) : List FieldFault :=
  FieldFault.length "public_key" (· = 66) f.publicKey ++ FieldFault.signature f.signature

end RegisterForm

structure AddKeysForm where
  user : UserId
  keys : String
  required : UInt32
  signature : String

namespace AddKeysForm

def fields : List (Member AddKeysForm) :=
  [.of "user_id" .required asUserId fun f v => { f with user := v },
    .of "xpubs" .required Draft.asText fun f v => { f with keys := v },
    .of "required_signers" .required Draft.asUInt32 fun f v => { f with required := v },
    .of "signature" .required Draft.asText fun f v => { f with signature := v }]

def ofDraft (d : Draft) : Except Fault AddKeysForm := Record.read fields ⟨default, "", 0, ""⟩ d

def faults (f : AddKeysForm) : List FieldFault :=
  FieldFault.range "required_signers" (fun n => 1 ≤ n && n ≤ 255) f.required.toNat ++
    FieldFault.signature f.signature ++ FieldFault.nonempty "xpubs" f.keys

end AddKeysForm

structure FindUserForm where
  keys : String

namespace FindUserForm

def fields : List (Member FindUserForm) :=
  [.of "xpubs" .required Draft.asText fun _ v => ⟨v⟩]

def ofDraft (d : Draft) : Except Fault FindUserForm := Record.read fields ⟨""⟩ d

def faults (f : FindUserForm) : List FieldFault := FieldFault.nonempty "xpubs" f.keys

end FindUserForm

structure UpdateForm where
  user : UserId
  entity : Entity
  signature : String

namespace UpdateForm

def fields : List (Member UpdateForm) :=
  [.of "user_id" .required asUserId fun f v => { f with user := v },
    .of "entity" .required Entity.ofDraft fun f v => { f with entity := v },
    .of "signature" .required Draft.asText fun f v => { f with signature := v }]

def ofDraft (d : Draft) : Except Fault UpdateForm := Record.read fields ⟨default, .empty, ""⟩ d

def faults (f : UpdateForm) : List FieldFault := FieldFault.signature f.signature

end UpdateForm

structure VerifyKeyForm where
  entity : Entity
  key : String
  index : UInt32

namespace VerifyKeyForm

def fields : List (Member VerifyKeyForm) :=
  [.of "entity" .required Entity.ofDraft fun f v => { f with entity := v },
    .of "xpub" .required Draft.asText fun f v => { f with key := v },
    .of "index" .required Draft.asUInt32 fun f v => { f with index := v }]

def ofDraft (d : Draft) : Except Fault VerifyKeyForm := Record.read fields ⟨.empty, "", 0⟩ d

def faults (f : VerifyKeyForm) : List FieldFault := FieldFault.nonempty "xpub" f.key

end VerifyKeyForm

structure VerifyKeysForm where
  entity : Entity
  keys : String

namespace VerifyKeysForm

def fields : List (Member VerifyKeysForm) :=
  [.of "entity" .required Entity.ofDraft fun f v => { f with entity := v },
    .of "xpubs" .required Draft.asText fun f v => { f with keys := v }]

def ofDraft (d : Draft) : Except Fault VerifyKeysForm := Record.read fields ⟨.empty, ""⟩ d

def faults (f : VerifyKeysForm) : List FieldFault := FieldFault.nonempty "xpubs" f.keys

end VerifyKeysForm

structure AdminForm where
  keys : String
  index : UInt32
  entity : Option Entity
  contract : Option String
  expiration : Option UInt64

namespace AdminForm

def fields : List (Member AdminForm) :=
  [.of "xpubs" .required Draft.asText fun f v => { f with keys := v },
    .of "index" .required Draft.asUInt32 fun f v => { f with index := v },
    .of "entity" .optional (Draft.asOptional Entity.ofDraft) fun f v => { f with entity := v },
    .of "entity_contract" .optional (Draft.asOptional Draft.asText)
      fun f v => { f with contract := v },
    .of "expiration" .optional (Draft.asOptional Draft.asUInt64)
      fun f v => { f with expiration := v }]

def ofDraft (d : Draft) : Except Fault AdminForm := Record.read fields ⟨"", 0, none, none, none⟩ d

def faults (f : AdminForm) : List FieldFault := FieldFault.nonempty "xpubs" f.keys

end AdminForm

structure TransferForm where
  contract : String
  instrument : String
  keys : String
  index : UInt32
  expiration : Option UInt64

namespace TransferForm

def fields : List (Member TransferForm) :=
  [.of "contract" .required Draft.asText fun f v => { f with contract := v },
    .of "instrument_id" .required Draft.asText fun f v => { f with instrument := v },
    .of "xpubs" .required Draft.asText fun f v => { f with keys := v },
    .of "index" .required Draft.asUInt32 fun f v => { f with index := v },
    .of "expiration" .optional (Draft.asOptional Draft.asUInt64)
      fun f v => { f with expiration := v }]

def ofDraft (d : Draft) : Except Fault TransferForm := Record.read fields ⟨"", "", "", 0, none⟩ d

def faults (f : TransferForm) : List FieldFault :=
  FieldFault.nonempty "contract" f.contract ++
    FieldFault.length "instrument_id" (4 ≤ ·) f.instrument ++ FieldFault.nonempty "xpubs" f.keys

end TransferForm

end Attestor.Http
