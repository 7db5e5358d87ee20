import Attestor.Key.Basic

/-! Extended public keys, from which child keys are derived, and ordered sets of one to 255 of
them. A set is what users file and what their addresses are derived from. -/

namespace Attestor

/-! ### Extended keys

A public key with a chain code, from which child keys are derived, and its place in the tree of
keys. Stored as 78 bytes, written as base-58 text. -/

structure ExtendedKey where
  network : Network
  depth : UInt8
  parent : Octets 4
  child : UInt32
  chainCode : Octets 32
  publicKey : PublicKey
  deriving DecidableEq

namespace ExtendedKey

/-- The number of bytes of the stored form. -/
def size : Nat := 78

/-- The first index of hardened children, which only a private key can derive. -/
def hardenedOffset : UInt32 := 0x80000000

/-- A key at the root of a tree. -/
def root (network : Network) (chainCode : Octets 32) (publicKey : PublicKey) : ExtendedKey :=
  ⟨network, 0, .replicate 4 0, 0, chainCode, publicKey⟩

theorem length_publicVersion (n : Network) : n.publicVersion.length = 4 := by cases n <;> rfl

/-- Version, depth, parent, child number, chain code and compressed key. -/
def bytes (key : ExtendedKey) : Octets size :=
  ⟨key.network.publicVersion ++ key.depth :: (key.parent.toList ++
      Bytes.bigEndian 4 key.child.toNat ++ key.chainCode.toList ++
      (PublicKey.bytes key.publicKey).toList),
    by simp [length_publicVersion, Octets.length_eq, size]⟩

/-- Reads 78 bytes. A private key's version is refused as such, before anything else is
looked at but the length. -/
def ofBytes (b : Bytes) : Except Key.Error ExtendedKey :=
  if b.length ≠ size then .error (.wrongLength .extendedKey b.length)
  else
    let version := b.take 4
    if version = Network.mainnet.privateVersion ∨ version = Network.testnet.privateVersion then
      .error .privateKey
    else
      match Network.ofPublicVersion? version, Octets.ofList? 4 ((b.drop 5).take 4),
          Octets.ofList? 32 ((b.drop 13).take 32), PublicKey.ofBytes? (b.drop 45) with
      | none, _, _, _ => .error (.unknownVersion version)
      | some network, some parent, some chainCode, some publicKey =>
        .ok ⟨network, (b.drop 4).headD 0, parent,
          .ofNat (Bytes.ofBigEndian ((b.drop 9).take 4)), chainCode, publicKey⟩
      | some _, _, _, _ => .error .malformedPoint

def text (key : ExtendedKey) : String := Text.Base58.encode key.bytes.toList

def parse (s : String) : Except Key.Error ExtendedKey :=
  match Text.Base58.decode (Text.trim s) with
  | .ok b => ofBytes b
  | .error fault => .error (.base58 fault)

/-- The first four bytes of the key's hash, which its children name as their parent. -/
def fingerprint (key : ExtendedKey) : Octets 4 :=
  ⟨(PublicKey.hash key.publicKey).toList.take 4, by simp [Octets.length_eq]⟩

/-- The child at an index below the hardened ones. A digest that is no scalar, or a sum at
infinity, gives no child; neither is known to occur. -/
def child? (key : ExtendedKey) (index : UInt32) : Except Key.Error ExtendedKey :=
  if hardenedOffset ≤ index then .error (.hardened index)
  else
    let mac := Hash.hmacSha512 key.chainCode.toList
      ((PublicKey.bytes key.publicKey).toList ++ Bytes.bigEndian 4 index.toNat)
    let tweak := Bytes.ofBigEndian (mac.take 32)
    if tweak = 0 ∨ Curve.order ≤ tweak then .error .malformedPoint
    else
      match Curve.combine? tweak 1 (.ofPoint key.publicKey), Octets.ofList? 32 (mac.drop 32) with
      | some point, some chainCode =>
        if key.depth = 255 then .error .tooDeep
        else .ok ⟨key.network, key.depth + 1, key.fingerprint, index, chainCode, point⟩
      | _, _ => .error .malformedPoint

/-- The key as it is shown to a person. -/
def shown (key : ExtendedKey) : String := "ExtendedKey(" ++ key.text ++ ")"

end ExtendedKey

/-! ### Key sets

The stored form is a count byte and the keys' bytes; the text is the keys' texts with commas
between them. -/

structure KeySet where
  keys : List ExtendedKey
  ne_nil : keys ≠ []
  length_le : keys.length ≤ 255
  deriving DecidableEq

namespace KeySet

def ofKeys (keys : List ExtendedKey) : Except Key.Error KeySet :=
  if h : keys = [] then .error .emptyKeySet
  else if h' : keys.length ≤ 255 then .ok ⟨keys, h, h'⟩
  else .error (.wrongLength .keySet keys.length)

def single (key : ExtendedKey) : KeySet := ⟨[key], by simp, by simp⟩

def size (set : KeySet) : Nat := set.keys.length

/-- The stored form, which also names the set in the store. -/
def bytes (set : KeySet) : Bytes :=
  UInt8.ofNat set.size :: set.keys.flatMap fun key => key.bytes.toList

/-- Reads a stored form. The length is checked before the keys, the keys in their order,
and emptiness last. -/
def ofBytes (b : Bytes) : Except Key.Error KeySet :=
  match b with
  | [] => .error (.wrongLength .keySet 0)
  | count :: body =>
    if body.length ≠ count.toNat * ExtendedKey.size then .error (.wrongLength .keySet b.length)
    else do ofKeys (← (Bytes.pieces 77 body).mapM ExtendedKey.ofBytes)

def text (set : KeySet) : String := ",".intercalate (set.keys.map ExtendedKey.text)

/-- Reads texts between commas; blanks around them and empty parts are ignored. -/
def parse (s : String) : Except Key.Error KeySet := do
  let parts := (Text.split ',' s).map Text.trim
  ofKeys (← (parts.filter (· ≠ "")).mapM ExtendedKey.parse)

/-- The public keys of the children at one index. -/
def children (set : KeySet) (index : UInt32) : Except Key.Error (List PublicKey) :=
  set.keys.mapM fun key => (key.child? index).map ExtendedKey.publicKey

/-- The set as it is shown to a person. -/
def shown (set : KeySet) : String :=
  "[" ++ ", ".intercalate (set.keys.map ExtendedKey.shown) ++ "]"

end KeySet

end Attestor
