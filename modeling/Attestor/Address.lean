import Attestor.Key.Basic

/-! Addresses, and the instruments that are held at them. An address is the hash of a key, the hash
of a script, or the hashes of several keys of which a number must sign. Each has raw bytes, told
apart by the first one; the first two also have a base-58 text for each network, the third is
written as its raw bytes in hexadecimal. -/

namespace Attestor

inductive Address where
  | keyHash (hash : Octets 20)
  | scriptHash (hash : Octets 20)
  | multiKey (required : UInt16) (hashes : List (Octets 20))
  deriving DecidableEq

namespace Address

def ofKey (key : PublicKey) : Address := keyHash (PublicKey.hash key)

/-- The address of keys of which `required` must sign; of one key it is the key's own. -/
def ofKeys (keys : List PublicKey) (required : UInt32) : Except Key.Error Address :=
  match keys with
  | [] => .error .emptyKeySet
  | [key] => if required = 1 then .ok (ofKey key) else .error (.requiredSigners required 1)
  | keys =>
    if required = 0 ∨ keys.length < required.toNat then
      .error (.requiredSigners required keys.length)
    else if 65535 < keys.length then .error (.wrongLength .keyList keys.length)
    else .ok (multiKey required.toUInt16 (keys.map PublicKey.hash))

def bytes : Address → Bytes
  | keyHash hash => 0x20 :: hash.toList
  | scriptHash hash => 0x21 :: hash.toList
  | multiKey required hashes =>
    0x22 :: (Bytes.littleEndian 2 required.toNat ++ Bytes.littleEndian 2 hashes.length ++
      hashes.flatMap Octets.toList)

/-- Reads raw bytes; every length but the right one for the first byte is refused. -/
def ofBytes (b : Bytes) : Except Key.Error Address :=
  let invalid := Except.error (.wrongLength .rawAddress b.length)
  match b with
  | [] => invalid
  | tag :: body =>
    if tag = 0x20 then
      match Octets.ofList? 20 body with
      | some hash => .ok (keyHash hash)
      | none => invalid
    else if tag = 0x21 then
      match Octets.ofList? 20 body with
      | some hash => .ok (scriptHash hash)
      | none => invalid
    else if tag = 0x22 then
      match body with
      | r₀ :: r₁ :: c₀ :: c₁ :: rest =>
        if rest.length ≠ Bytes.ofLittleEndian [c₀, c₁] * 20 then invalid
        else
          match (Bytes.pieces 19 rest).mapM (Octets.ofList? 20) with
          | some hashes => .ok (multiKey (.ofNat (Bytes.ofLittleEndian [r₀, r₁])) hashes)
          | none => invalid
      | _ => invalid
    else .error (.unknownAddressType tag)

def text (network : Network) : Address → String
  | keyHash hash => Text.Base58.encode (network.keyHashVersion :: hash.toList)
  | scriptHash hash => Text.Base58.encode (network.scriptHashVersion :: hash.toList)
  | multiKey required hashes => Text.Hex.encode (multiKey required hashes).bytes

/-- Reads a text: one that passes the base-58 checksum must be an address of the network,
any other is read as raw bytes in hexadecimal. -/
def parse (network : Network) (s : String) : Except Key.Error Address :=
  let s := Text.trim s
  match Text.Base58.decode s with
  | .ok [] => .error (.wrongLength .address 0)
  | .ok (version :: body) =>
    match Octets.ofList? 20 body with
    | none => .error (.wrongLength .address (body.length + 1))
    | some hash =>
      if version = network.keyHashVersion then .ok (keyHash hash)
      else if version = network.scriptHashVersion then .ok (scriptHash hash)
      else .error (.unknownAddressType version)
  | .error _ =>
    match Text.Hex.decode s with
    | .ok b => ofBytes b
    | .error fault => .error (.hex fault)

end Address

/-! ### Instruments

An identifier is three capitals for the kind of instrument, then a 20-byte code in base-58
text. -/

structure Instrument where
  kind : String
  code : Octets 20
  deriving DecidableEq

namespace Instrument

def text (i : Instrument) : String := i.kind ++ Text.Base58.encode i.code.toList

def isCapital (c : Char) : Bool := 'A' ≤ c && c ≤ 'Z'

/-- Reads a text; whatever is wrong with it, the fault shows it without its outer blanks. -/
def parse (s : String) : Except Key.Error Instrument :=
  let s := Text.trim s
  let invalid := Except.error (.invalidInstrument s)
  match s.toList with
  | a :: b :: c :: rest =>
    if isCapital a && isCapital b && isCapital c then
      match Text.Base58.decode (String.ofList rest) with
      | .ok payload =>
        match Octets.ofList? 20 payload with
        | some code => .ok ⟨String.ofList [a, b, c], code⟩
        | none => invalid
      | .error _ => invalid
    else invalid
  | _ => invalid

end Instrument

end Attestor
