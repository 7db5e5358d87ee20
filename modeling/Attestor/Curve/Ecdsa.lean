import Attestor.Curve.Point
import Attestor.Hash

/-! ECDSA over 32-byte digests: deterministic nonces from an HMAC generator seeded with the key and
the digest, signatures with the smaller of the two possible `s`, and a check that accepts either.
Signatures are stored in DER form. -/

namespace Attestor.Curve

structure Signature where
  r : Nat
  s : Nat
  deriving DecidableEq

namespace Ecdsa

/-- A digest as a number. -/
def number (digest : Octets 32) : Nat := Bytes.ofBigEndian digest.toList

/-- The state of the nonce generator: its key and its last output. -/
structure Generator where
  key : Bytes
  value : Bytes

namespace Generator

/-- Mixes data into the key, marked by `mark`. -/
def reseed (g : Generator) (mark : UInt8) (data : Bytes) : Generator :=
  let key := Hash.hmacSha256 g.key (g.value ++ mark :: data)
  ⟨key, Hash.hmacSha256 key g.value⟩

def seeded (secret : Nat) (digest : Octets 32) : Generator :=
  let data := Bytes.bigEndian 32 secret ++ Bytes.bigEndian 32 (number digest % order)
  ((⟨List.replicate 32 0, List.replicate 32 1⟩ : Generator).reseed 0 data).reseed 1 data

/-- The next output. -/
def next (g : Generator) : Generator := ⟨g.key, Hash.hmacSha256 g.key g.value⟩

end Generator

/-- The signature that a nonce gives, unless the nonce or one of its parts is out of range. -/
def signWith? (secret : Nat) (digest : Octets 32) (nonce : Nat) : Option Signature :=
  if nonce = 0 ∨ order ≤ nonce then none
  else
    (combine? nonce 0 Projective.infinity).bind fun p =>
      let r := p.x % order
      let s := inverse order nonce * (number digest + r * secret) % order
      if r = 0 ∨ s = 0 then none else some ⟨r, min s (order - s)⟩

/-- Tries nonces until one gives a signature; a refused nonce reseeds the generator. Each
is refused with probability below 2⁻¹²⁷, so `tries` bounds a search that ends at once. -/
def search (secret : Nat) (digest : Octets 32) : (tries : Nat) → Generator → Signature
  | 0, _ => ⟨0, 0⟩
  | tries + 1, g =>
    let g := g.next
    match signWith? secret digest (Bytes.ofBigEndian g.value) with
    | some signature => signature
    | none => search secret digest tries (g.reseed 0 [])

def sign (secret : Nat) (digest : Octets 32) : Signature :=
  search secret digest 64 (.seeded secret digest)

/-- Whether the signature is valid for the digest under the key; any `s` in range will do. -/
def verify (digest : Octets 32) (signature : Signature) (key : Point) : Bool :=
  let r := signature.r
  let s := signature.s
  if r = 0 ∨ order ≤ r ∨ s = 0 ∨ order ≤ s then false
  else
    let w := inverse order s
    match combine? (number digest * w % order) (r * w % order) (.ofPoint key) with
    | some p => p.x % order = r
    | none => false

end Ecdsa

end Attestor.Curve

/-! ### DER

Reading is strict about lengths and padding; an integer that is negative or too large for a
scalar is read as zero, which no valid signature has. -/

namespace Attestor.Curve.Der

/-- The bytes of `v`, most significant first and none for zero, put before `acc`. -/
def bytesOnto (v : Nat) (acc : Bytes) : Bytes :=
  if h : v = 0 then acc else bytesOnto (v / 256) (UInt8.ofNat v :: acc)
termination_by v
decreasing_by exact Nat.div_lt_self (Nat.pos_of_ne_zero h) (by decide)

/-- The shortest two's complement form of a number. -/
def magnitude (v : Nat) : Bytes :=
  match bytesOnto v [] with
  | [] => [0]
  | b :: rest => if b < 0x80 then b :: rest else 0 :: b :: rest

def encodeInteger (v : Nat) : Bytes :=
  let m := magnitude v
  0x02 :: UInt8.ofNat m.length :: m

def encode (s : Signature) : Bytes :=
  let body := encodeInteger s.r ++ encodeInteger s.s
  0x30 :: UInt8.ofNat body.length :: body

/-- A length and what follows it. The long form takes at most eight bytes, and only for
lengths that need it. -/
def readLength : Bytes → Option (Nat × Bytes)
  | [] => none
  | b :: rest =>
    if b = 0xff then none
    else if b < 0x80 then some (b.toNat, rest)
    else if b = 0x80 then none
    else
      let n := b.toNat - 0x80
      let digits := rest.take n
      let rest' := rest.drop n
      let v := Bytes.ofBigEndian digits
      if rest.length < n ∨ digits.head? = some 0 ∨ 8 < n ∨ rest'.length < v ∨ v < 128 then none
      else some (v, rest')

/-- The value of an integer's content bytes, zero when it is no scalar; `none` for content
that is empty or longer than it need be. -/
def integerValue? (content : Bytes) : Option Nat :=
  match content with
  | [] => none
  | 0x00 :: b :: _ =>
    if b < 0x80 then none
    else
      let v := Bytes.ofBigEndian content
      some (if 33 < content.length ∨ order ≤ v then 0 else v)
  | 0xff :: b :: _ => if b < 0x80 then some 0 else none
  | b :: _ =>
    let v := Bytes.ofBigEndian content
    some (if 0x80 ≤ b ∨ 32 < content.length ∨ order ≤ v then 0 else v)

def readInteger (b : Bytes) : Option (Nat × Bytes) :=
  match b with
  | 0x02 :: rest => do
    let (n, rest) ← readLength rest
    if rest.length < n then none
    else
      let v ← integerValue? (rest.take n)
      some (v, rest.drop n)
  | _ => none

def decode (b : Bytes) : Option Signature :=
  match b with
  | 0x30 :: rest => do
    let (n, rest) ← readLength rest
    if n ≠ rest.length then none
    else
      let (r, rest) ← readInteger rest
      let (s, rest) ← readInteger rest
      if rest.isEmpty then some ⟨r, s⟩ else none
  | _ => none

end Attestor.Curve.Der
