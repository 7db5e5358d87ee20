import Attestor.Bytes

/-! The hashes in use, SHA-256, SHA-512 and RIPEMD-160, and keyed hashing (HMAC) over the first
two. Padding, the words of a block and one round are separate functions, so that the length of a
result can be read off. -/

namespace Attestor.Hash.Sha256

/-! ### SHA-256 -/

/-- The eight working words. -/
structure State where
  a : UInt32
  b : UInt32
  c : UInt32
  d : UInt32
  e : UInt32
  f : UInt32
  g : UInt32
  h : UInt32

/-- Fractional parts of the square roots of the first eight primes. -/
def initial : State :=
  ⟨0x6a09e667, 0xbb67ae85, 0x3c6ef372, 0xa54ff53a,
   0x510e527f, 0x9b05688c, 0x1f83d9ab, 0x5be0cd19⟩

/-- Fractional parts of the cube roots of the first 64 primes. -/
def constants : Array UInt32 := #[
  0x428a2f98, 0x71374491, 0xb5c0fbcf, 0xe9b5dba5, 0x3956c25b, 0x59f111f1, 0x923f82a4, 0xab1c5ed5,
  0xd807aa98, 0x12835b01, 0x243185be, 0x550c7dc3, 0x72be5d74, 0x80deb1fe, 0x9bdc06a7, 0xc19bf174,
  0xe49b69c1, 0xefbe4786, 0x0fc19dc6, 0x240ca1cc, 0x2de92c6f, 0x4a7484aa, 0x5cb0a9dc, 0x76f988da,
  0x983e5152, 0xa831c66d, 0xb00327c8, 0xbf597fc7, 0xc6e00bf3, 0xd5a79147, 0x06ca6351, 0x14292967,
  0x27b70a85, 0x2e1b2138, 0x4d2c6dfc, 0x53380d13, 0x650a7354, 0x766a0abb, 0x81c2c92e, 0x92722c85,
  0xa2bfe8a1, 0xa81a664b, 0xc24b8b70, 0xc76c51a3, 0xd192e819, 0xd6990624, 0xf40e3585, 0x106aa070,
  0x19a4c116, 0x1e376c08, 0x2748774c, 0x34b0bcb5, 0x391c0cb3, 0x4ed8aa4a, 0x5b9cca4f, 0x682e6ff3,
  0x748f82ee, 0x78a5636f, 0x84c87814, 0x8cc70208, 0x90befffa, 0xa4506ceb, 0xbef9a3f7, 0xc67178f2]

def rotateRight (x n : UInt32) : UInt32 := (x >>> n) ||| (x <<< (32 - n))

/-- One bit, zeros, and the bit length in 8 bytes, up to a whole number of blocks. -/
def pad (b : Bytes) : Bytes :=
  b ++ 0x80 :: (List.replicate ((119 - b.length % 64) % 64) 0
    ++ Bytes.bigEndian 8 (8 * b.length))

/-- The words of a block, most significant byte first. -/
def words (block : Bytes) : Array UInt32 :=
  (Bytes.pieces 3 block).foldl (fun acc w => acc.push (.ofNat (Bytes.ofBigEndian w))) #[]

def extend (w : Array UInt32) : Array UInt32 :=
  let x := w.getD (w.size - 15) 0
  let y := w.getD (w.size - 2) 0
  let s₀ := rotateRight x 7 ^^^ rotateRight x 18 ^^^ (x >>> 3)
  let s₁ := rotateRight y 17 ^^^ rotateRight y 19 ^^^ (y >>> 10)
  w.push (w.getD (w.size - 16) 0 + s₀ + w.getD (w.size - 7) 0 + s₁)

/-- The message schedule: the words of the block and 48 more. -/
def schedule (block : Bytes) : Array UInt32 :=
  Nat.fold 48 (fun _ _ w => extend w) (words block)

def round (s : State) (k w : UInt32) : State :=
  let t₁ := s.h + (rotateRight s.e 6 ^^^ rotateRight s.e 11 ^^^ rotateRight s.e 25)
    + ((s.e &&& s.f) ^^^ (~~~s.e &&& s.g)) + k + w
  let t₂ := (rotateRight s.a 2 ^^^ rotateRight s.a 13 ^^^ rotateRight s.a 22)
    + ((s.a &&& s.b) ^^^ (s.a &&& s.c) ^^^ (s.b &&& s.c))
  ⟨t₁ + t₂, s.a, s.b, s.c, s.d + t₁, s.e, s.f, s.g⟩

def add (s t : State) : State :=
  ⟨s.a + t.a, s.b + t.b, s.c + t.c, s.d + t.d, s.e + t.e, s.f + t.f, s.g + t.g, s.h + t.h⟩

def compress (s : State) (block : Bytes) : State :=
  let w := schedule block
  add s (Nat.fold 64 (fun i _ t => round t (constants.getD i 0) (w.getD i 0)) s)

def State.bytes (s : State) : Bytes :=
  [s.a, s.b, s.c, s.d, s.e, s.f, s.g, s.h].flatMap fun w => Bytes.bigEndian 4 w.toNat

theorem State.length_bytes (s : State) : s.bytes.length = 32 := by
  simp [State.bytes]

def digest (b : Bytes) : Octets 32 :=
  let s := (Bytes.pieces 63 (pad b)).foldl compress initial
  ⟨s.bytes, s.length_bytes⟩

end Attestor.Hash.Sha256

/-! ### SHA-512 -/

namespace Attestor.Hash.Sha512

/-- The eight working words. -/
structure State where
  a : UInt64
  b : UInt64
  c : UInt64
  d : UInt64
  e : UInt64
  f : UInt64
  g : UInt64
  h : UInt64

/-- Fractional parts of the square roots of the first eight primes. -/
def initial : State :=
  ⟨0x6a09e667f3bcc908, 0xbb67ae8584caa73b, 0x3c6ef372fe94f82b, 0xa54ff53a5f1d36f1,
   0x510e527fade682d1, 0x9b05688c2b3e6c1f, 0x1f83d9abfb41bd6b, 0x5be0cd19137e2179⟩

/-- Fractional parts of the cube roots of the first 80 primes. -/
def constants : Array UInt64 := #[
  0x428a2f98d728ae22, 0x7137449123ef65cd, 0xb5c0fbcfec4d3b2f, 0xe9b5dba58189dbbc,
  0x3956c25bf348b538, 0x59f111f1b605d019, 0x923f82a4af194f9b, 0xab1c5ed5da6d8118,
  0xd807aa98a3030242, 0x12835b0145706fbe, 0x243185be4ee4b28c, 0x550c7dc3d5ffb4e2,
  0x72be5d74f27b896f, 0x80deb1fe3b1696b1, 0x9bdc06a725c71235, 0xc19bf174cf692694,
  0xe49b69c19ef14ad2, 0xefbe4786384f25e3, 0x0fc19dc68b8cd5b5, 0x240ca1cc77ac9c65,
  0x2de92c6f592b0275, 0x4a7484aa6ea6e483, 0x5cb0a9dcbd41fbd4, 0x76f988da831153b5,
  0x983e5152ee66dfab, 0xa831c66d2db43210, 0xb00327c898fb213f, 0xbf597fc7beef0ee4,
  0xc6e00bf33da88fc2, 0xd5a79147930aa725, 0x06ca6351e003826f, 0x142929670a0e6e70,
  0x27b70a8546d22ffc, 0x2e1b21385c26c926, 0x4d2c6dfc5ac42aed, 0x53380d139d95b3df,
  0x650a73548baf63de, 0x766a0abb3c77b2a8, 0x81c2c92e47edaee6, 0x92722c851482353b,
  0xa2bfe8a14cf10364, 0xa81a664bbc423001, 0xc24b8b70d0f89791, 0xc76c51a30654be30,
  0xd192e819d6ef5218, 0xd69906245565a910, 0xf40e35855771202a, 0x106aa07032bbd1b8,
  0x19a4c116b8d2d0c8, 0x1e376c085141ab53, 0x2748774cdf8eeb99, 0x34b0bcb5e19b48a8,
  0x391c0cb3c5c95a63, 0x4ed8aa4ae3418acb, 0x5b9cca4f7763e373, 0x682e6ff3d6b2b8a3,
  0x748f82ee5defb2fc, 0x78a5636f43172f60, 0x84c87814a1f0ab72, 0x8cc702081a6439ec,
  0x90befffa23631e28, 0xa4506cebde82bde9, 0xbef9a3f7b2c67915, 0xc67178f2e372532b,
  0xca273eceea26619c, 0xd186b8c721c0c207, 0xeada7dd6cde0eb1e, 0xf57d4f7fee6ed178,
  0x06f067aa72176fba, 0x0a637dc5a2c898a6, 0x113f9804bef90dae, 0x1b710b35131c471b,
  0x28db77f523047d84, 0x32caab7b40c72493, 0x3c9ebe0a15c9bebc, 0x431d67c49c100d4c,
  0x4cc5d4becb3e42b6, 0x597f299cfc657e2a, 0x5fcb6fab3ad6faec, 0x6c44198c4a475817]

def rotateRight (x n : UInt64) : UInt64 := (x >>> n) ||| (x <<< (64 - n))

/-- One bit, zeros, and the bit length in 16 bytes, up to a whole number of blocks. -/
def pad (b : Bytes) : Bytes :=
  b ++ 0x80 :: (List.replicate ((239 - b.length % 128) % 128) 0
    ++ Bytes.bigEndian 16 (8 * b.length))

/-- The words of a block, most significant byte first. -/
def words (block : Bytes) : Array UInt64 :=
  (Bytes.pieces 7 block).foldl (fun acc w => acc.push (.ofNat (Bytes.ofBigEndian w))) #[]

def extend (w : Array UInt64) : Array UInt64 :=
  let x := w.getD (w.size - 15) 0
  let y := w.getD (w.size - 2) 0
  let s₀ := rotateRight x 1 ^^^ rotateRight x 8 ^^^ (x >>> 7)
  let s₁ := rotateRight y 19 ^^^ rotateRight y 61 ^^^ (y >>> 6)
  w.push (w.getD (w.size - 16) 0 + s₀ + w.getD (w.size - 7) 0 + s₁)

/-- The message schedule: the words of the block and 64 more. -/
def schedule (block : Bytes) : Array UInt64 :=
  Nat.fold 64 (fun _ _ w => extend w) (words block)

def round (s : State) (k w : UInt64) : State :=
  let t₁ := s.h + (rotateRight s.e 14 ^^^ rotateRight s.e 18 ^^^ rotateRight s.e 41)
    + ((s.e &&& s.f) ^^^ (~~~s.e &&& s.g)) + k + w
  let t₂ := (rotateRight s.a 28 ^^^ rotateRight s.a 34 ^^^ rotateRight s.a 39)
    + ((s.a &&& s.b) ^^^ (s.a &&& s.c) ^^^ (s.b &&& s.c))
  ⟨t₁ + t₂, s.a, s.b, s.c, s.d + t₁, s.e, s.f, s.g⟩

def add (s t : State) : State :=
  ⟨s.a + t.a, s.b + t.b, s.c + t.c, s.d + t.d, s.e + t.e, s.f + t.f, s.g + t.g, s.h + t.h⟩

def compress (s : State) (block : Bytes) : State :=
  let w := schedule block
  add s (Nat.fold 80 (fun i _ t => round t (constants.getD i 0) (w.getD i 0)) s)

def State.bytes (s : State) : Bytes :=
  [s.a, s.b, s.c, s.d, s.e, s.f, s.g, s.h].flatMap fun w => Bytes.bigEndian 8 w.toNat

theorem State.length_bytes (s : State) : s.bytes.length = 64 := by
  simp [State.bytes]

def digest (b : Bytes) : Octets 64 :=
  let s := (Bytes.pieces 127 (pad b)).foldl compress initial
  ⟨s.bytes, s.length_bytes⟩

end Attestor.Hash.Sha512

/-! ### RIPEMD-160

Two lines of eighty steps over the same block, joined at the end of each block. -/

namespace Attestor.Hash.Ripemd160

/-- The five working words. -/
structure State where
  a : UInt32
  b : UInt32
  c : UInt32
  d : UInt32
  e : UInt32

def initial : State := ⟨0x67452301, 0xefcdab89, 0x98badcfe, 0x10325476, 0xc3d2e1f0⟩

/-- The word of the block that each step of the left line reads. -/
def leftWord : Array Nat := #[
  0, 1, 2, 3, 4, 5, 6, 7, 8, 9, 10, 11, 12, 13, 14, 15,
  7, 4, 13, 1, 10, 6, 15, 3, 12, 0, 9, 5, 2, 14, 11, 8,
  3, 10, 14, 4, 9, 15, 8, 1, 2, 7, 0, 6, 13, 11, 5, 12,
  1, 9, 11, 10, 0, 8, 12, 4, 13, 3, 7, 15, 14, 5, 6, 2,
  4, 0, 5, 9, 7, 12, 2, 10, 14, 1, 3, 8, 11, 6, 15, 13]

/-- The word of the block that each step of the right line reads. -/
def rightWord : Array Nat := #[
  5, 14, 7, 0, 9, 2, 11, 4, 13, 6, 15, 8, 1, 10, 3, 12,
  6, 11, 3, 7, 0, 13, 5, 10, 14, 15, 8, 12, 4, 9, 1, 2,
  15, 5, 1, 3, 7, 14, 6, 9, 11, 8, 12, 2, 10, 0, 4, 13,
  8, 6, 4, 1, 3, 11, 15, 0, 5, 12, 2, 13, 9, 7, 10, 14,
  12, 15, 10, 4, 1, 5, 8, 7, 6, 2, 13, 14, 0, 3, 9, 11]

/-- How far each step of the left line rotates. -/
def leftShift : Array UInt32 := #[
  11, 14, 15, 12, 5, 8, 7, 9, 11, 13, 14, 15, 6, 7, 9, 8,
  7, 6, 8, 13, 11, 9, 7, 15, 7, 12, 15, 9, 11, 7, 13, 12,
  11, 13, 6, 7, 14, 9, 13, 15, 14, 8, 13, 6, 5, 12, 7, 5,
  11, 12, 14, 15, 14, 15, 9, 8, 9, 14, 5, 6, 8, 6, 5, 12,
  9, 15, 5, 11, 6, 8, 13, 12, 5, 12, 13, 14, 11, 8, 5, 6]

/-- How far each step of the right line rotates. -/
def rightShift : Array UInt32 := #[
  8, 9, 9, 11, 13, 15, 15, 5, 7, 7, 8, 11, 14, 14, 12, 6,
  9, 13, 15, 7, 12, 8, 9, 11, 7, 7, 12, 7, 6, 15, 13, 11,
  9, 7, 15, 11, 8, 6, 6, 14, 12, 13, 5, 14, 13, 13, 7, 5,
  15, 5, 8, 11, 14, 14, 6, 14, 6, 9, 12, 9, 12, 5, 15, 8,
  8, 5, 12, 9, 12, 5, 14, 6, 8, 13, 6, 5, 15, 13, 11, 11]

def leftConstant : Array UInt32 := #[0, 0x5a827999, 0x6ed9eba1, 0x8f1bbcdc, 0xa953fd4e]

def rightConstant : Array UInt32 := #[0x50a28be6, 0x5c4dd124, 0x6d703ef3, 0x7a6d76e9, 0]

def rotateLeft (x n : UInt32) : UInt32 := (x <<< n) ||| (x >>> (32 - n))

/-- The bitwise function of the five groups of sixteen steps. -/
def mix (group : Nat) (x y z : UInt32) : UInt32 :=
  match group with
  | 0 => x ^^^ y ^^^ z
  | 1 => (x &&& y) ||| (~~~x &&& z)
  | 2 => (x ||| ~~~y) ^^^ z
  | 3 => (x &&& z) ||| (y &&& ~~~z)
  | _ => x ^^^ (y ||| ~~~z)

def step (s : State) (group : Nat) (w k shift : UInt32) : State :=
  let t := rotateLeft (s.a + mix group s.b s.c s.d + w + k) shift + s.e
  ⟨s.e, t, s.b, rotateLeft s.c 10, s.d⟩

/-- One bit, zeros, and the bit length in eight bytes, up to a whole number of blocks. -/
def pad (b : Bytes) : Bytes :=
  b ++ 0x80 :: (List.replicate ((119 - b.length % 64) % 64) 0
    ++ Bytes.littleEndian 8 (8 * b.length))

/-- The words of a block, least significant byte first. -/
def words (block : Bytes) : Array UInt32 :=
  (Bytes.pieces 3 block).foldl (fun acc w => acc.push (.ofNat (Bytes.ofLittleEndian w))) #[]

def leftLine (s : State) (w : Array UInt32) : State :=
  Nat.fold 80 (fun i _ t => step t (i / 16) (w.getD (leftWord.getD i 0) 0)
    (leftConstant.getD (i / 16) 0) (leftShift.getD i 0)) s

def rightLine (s : State) (w : Array UInt32) : State :=
  Nat.fold 80 (fun i _ t => step t (4 - i / 16) (w.getD (rightWord.getD i 0) 0)
    (rightConstant.getD (i / 16) 0) (rightShift.getD i 0)) s

def compress (s : State) (block : Bytes) : State :=
  let w := words block
  let l := leftLine s w
  let r := rightLine s w
  ⟨s.b + l.c + r.d, s.c + l.d + r.e, s.d + l.e + r.a, s.e + l.a + r.b, s.a + l.b + r.c⟩

def State.bytes (s : State) : Bytes :=
  [s.a, s.b, s.c, s.d, s.e].flatMap fun w => Bytes.littleEndian 4 w.toNat

theorem State.length_bytes (s : State) : s.bytes.length = 20 := by
  simp [State.bytes]

def digest (b : Bytes) : Octets 20 :=
  let s := (Bytes.pieces 63 (pad b)).foldl compress initial
  ⟨s.bytes, s.length_bytes⟩

end Attestor.Hash.Ripemd160

/-! ### Keyed hashing -/

namespace Attestor.Hash

/-- HMAC for a hash with blocks of `block` bytes. -/
def hmac (block : Nat) (hash : Bytes → Bytes) (key message : Bytes) : Bytes :=
  let short := if key.length > block then hash key else key
  let padded := short ++ List.replicate (block - short.length) 0
  hash (padded.map (· ^^^ 0x5c) ++ hash (padded.map (· ^^^ 0x36) ++ message))

def hmacSha256 (key message : Bytes) : Bytes :=
  hmac 64 (fun b => (Sha256.digest b).toList) key message

def hmacSha512 (key message : Bytes) : Bytes :=
  hmac 128 (fun b => (Sha512.digest b).toList) key message

/-- SHA-256 applied twice. -/
def doubleSha256 (b : Bytes) : Octets 32 := Sha256.digest (Sha256.digest b).toList

end Attestor.Hash
