import Attestor.Curve.Ecdsa
import Attestor.Hash
import Attestor.Text.Digits

/-! Keys: what can be wrong with key material, the two networks that keys and addresses belong to,
public keys, and the service's own key with its secret. -/

namespace Attestor.Key

/-! ### Faults -/

/-- The things whose length is checked. -/
inductive Item where
  | extendedKey | keySet | rawAddress | address | signingKey | keyList
  deriving DecidableEq

def Item.name : Item → String
  | .extendedKey => "extended key"
  | .keySet => "key set"
  | .rawAddress => "raw address"
  | .address => "address"
  | .signingKey => "oracle key"
  | .keyList => "multi-pkh key list"

inductive Error where
  | hex (fault : Text.Hex.Error)
  | base58 (fault : Text.Base58.Error)
  | malformedPublicKey
  | secretOutOfRange
  | unknownVersion (bytes : Bytes)
  | malformedPoint
  | tooDeep
  | wrongLength (item : Item) (length : Nat)
  | privateKey
  | hardened (index : UInt32)
  | emptyKeySet
  | requiredSigners (required : UInt32) (available : Nat)
  | unknownAddressType (tag : UInt8)
  | invalidInstrument (text : String)
  | unknownNetwork (text : String)
  deriving DecidableEq

def Error.message : Error → String
  | .hex fault => "invalid hex: " ++ fault.message
  | .base58 fault => "invalid base58: " ++ fault.message
  | .malformedPublicKey => "invalid key: malformed public key"
  | .secretOutOfRange => "invalid key: malformed or out-of-range secret key"
  | .unknownVersion bytes =>
    "invalid extended key: unknown version magic bytes: [" ++
      ", ".intercalate (bytes.map fun b => toString b.toNat) ++ "]"
  | .malformedPoint => "invalid extended key: secp256k1 error"
  | .tooDeep => "invalid extended key: cannot derive child of depth 256 or higher"
  | .wrongLength item length => "invalid " ++ item.name ++ " length " ++ toString length
  | .privateKey => "private extended keys are not accepted"
  | .hardened index =>
    "cannot derive hardened child " ++ toString index.toNat ++ " from a public key"
  | .emptyKeySet => "empty key set"
  | .requiredSigners required available =>
    "required signers " ++ toString required.toNat ++ " must be between 1 and " ++
      toString available
  | .unknownAddressType tag => "unknown address type 0x" ++ Text.Hex.encode [tag]
  | .invalidInstrument text => "invalid instrument id: " ++ text
  | .unknownNetwork text => "unknown network " ++ text

end Attestor.Key

/-! ### Networks

Their addresses and extended keys are told apart by version bytes. -/

namespace Attestor

inductive Network where
  | mainnet
  | testnet
  deriving DecidableEq, Inhabited

namespace Network

def text : Network → String
  | mainnet => "mainnet"
  | testnet => "testnet"

/-- Names are read without blanks around them and in any case. -/
def parse (s : String) : Except Key.Error Network :=
  let name := Text.lower (Text.trim s)
  if name = "mainnet" ∨ name = "main" then .ok mainnet
  else if name = "testnet" ∨ name = "test" ∨ name = "regtest" ∨ name = "stn" then .ok testnet
  else .error (.unknownNetwork name)

/-- The version byte of an address that pays to the hash of a key. -/
def keyHashVersion : Network → UInt8
  | mainnet => 0x00
  | testnet => 0x6f

/-- The version byte of an address that pays to the hash of a script. -/
def scriptHashVersion : Network → UInt8
  | mainnet => 0x05
  | testnet => 0xc4

/-- The first four bytes of an extended public key. -/
def publicVersion : Network → Bytes
  | mainnet => [0x04, 0x88, 0xb2, 0x1e]
  | testnet => [0x04, 0x35, 0x87, 0xcf]

/-- The first four bytes of an extended private key. -/
def privateVersion : Network → Bytes
  | mainnet => [0x04, 0x88, 0xad, 0xe4]
  | testnet => [0x04, 0x35, 0x83, 0x94]

/-- The network whose extended public keys start with these bytes. -/
def ofPublicVersion? (version : Bytes) : Option Network :=
  if version = mainnet.publicVersion then some mainnet
  else if version = testnet.publicVersion then some testnet
  else none

end Network

/-! ### Public keys

They are kept compressed, read from three serializations, and hashed for addresses. -/

/-- RIPEMD-160 of SHA-256. -/
def hash160 (b : Bytes) : Octets 20 := Hash.Ripemd160.digest (Hash.Sha256.digest b).toList

/-- A public key is a point of the curve. -/
abbrev PublicKey := Curve.Point

namespace PublicKey

/-- Compressed form: the parity of y, then x. -/
def bytes (key : PublicKey) : Octets 33 :=
  ⟨(if key.y % 2 = 1 then 0x03 else 0x02) :: Bytes.bigEndian 32 key.x, by simp⟩

/-- Reads a compressed key (33 bytes) or one with both coordinates (65 bytes), whose first
byte may repeat the parity of y. -/
def ofBytes? (b : Bytes) : Option PublicKey :=
  match b with
  | [] => none
  | tag :: body =>
    let x := Bytes.ofBigEndian (body.take 32)
    if body.length = 32 then
      if tag = 0x02 then Curve.Point.lift? x false
      else if tag = 0x03 then Curve.Point.lift? x true
      else none
    else if body.length = 64 then
      let y := Bytes.ofBigEndian (body.drop 32)
      if tag = 0x04 ∨ (tag = 0x06 ∧ y % 2 = 0) ∨ (tag = 0x07 ∧ y % 2 = 1) then
        Curve.Point.ofCoordinates? x y
      else none
    else none

def ofBytes (b : Bytes) : Except Key.Error PublicKey :=
  match ofBytes? b with
  | some key => .ok key
  | none => .error .malformedPublicKey

/-- Reads hexadecimal digits, with blanks around them ignored. -/
def parse (s : String) : Except Key.Error PublicKey :=
  match Text.Hex.decode (Text.trim s) with
  | .ok b => ofBytes b
  | .error fault => .error (.hex fault)

def text (key : PublicKey) : String := Text.Hex.encode (bytes key).toList

def hash (key : PublicKey) : Octets 20 := hash160 (bytes key).toList

/-- The key as it is shown to a person. -/
def shown (key : PublicKey) : String := "PublicKey(" ++ text key ++ ")"

/-- Whether DER bytes are a signature of the digest under the key. -/
def verifies (key : PublicKey) (digest : Octets 32) (signature : Bytes) : Bool :=
  match Curve.Der.decode signature with
  | some s => Curve.Ecdsa.verify digest s key
  | none => false

end PublicKey

/-! ### The service's own key -/

structure SigningKey where
  secret : Nat
  publicKey : PublicKey

namespace SigningKey

/-- The key for a secret number between 1 and the order of the group. -/
def ofSecret? (secret : Nat) : Option SigningKey :=
  if secret = 0 ∨ Curve.order ≤ secret then none
  else (Curve.combine? secret 0 .infinity).map (SigningKey.mk secret)

/-- Reads 32 bytes of hexadecimal digits. -/
def parse (s : String) : Except Key.Error SigningKey :=
  match Text.Hex.decode (Text.trim s) with
  | .error fault => .error (.hex fault)
  | .ok b =>
    if b.length ≠ 32 then .error (.wrongLength .signingKey b.length)
    else
      match ofSecret? (Bytes.ofBigEndian b) with
      | some key => .ok key
      | none => .error .secretOutOfRange

/-- The DER bytes of the key's signature of a digest. -/
def sign (key : SigningKey) (digest : Octets 32) : Bytes :=
  Curve.Der.encode (Curve.Ecdsa.sign key.secret digest)

/-- The key as it is shown to a person: never with its secret. -/
def shown (key : SigningKey) : String :=
  "OracleKey \x7b public: " ++ PublicKey.shown key.publicKey ++ ", secret: \"<redacted>\" \x7d"

end SigningKey

end Attestor
