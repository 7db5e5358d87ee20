/-! Byte strings: any length, a fixed length, and whole numbers written in a fixed
number of bytes, in either byte order. -/

namespace Attestor

/-- A byte string of any length. -/
abbrev Bytes := List UInt8

/-- A byte string of exactly `n` bytes. -/
structure Octets (n : Nat) where
  toList : Bytes
  length_eq : toList.length = n
  deriving DecidableEq

namespace Octets

variable {n : Nat}

def ofList? (n : Nat) (b : Bytes) : Option (Octets n) :=
  if h : b.length = n then some ⟨b, h⟩ else none

def replicate (n : Nat) (b : UInt8) : Octets n := ⟨List.replicate n b, List.length_replicate⟩

instance : Inhabited (Octets n) := ⟨replicate n 0⟩

theorem ext {a b : Octets n} (h : a.toList = b.toList) : a = b := by
  cases a; cases b; cases h; rfl

theorem toList_inj {a b : Octets n} : a.toList = b.toList ↔ a = b :=
  ⟨ext, fun h => h ▸ rfl⟩

@[simp] theorem ofList?_toList (a : Octets n) : ofList? n a.toList = some a := by
  simp [ofList?, a.length_eq]

theorem ofList?_eq_some {b : Bytes} {a : Octets n} : ofList? n b = some a ↔ b = a.toList := by
  constructor
  · intro h
    unfold ofList? at h
    split at h
    · simp only [Option.some.injEq] at h
      exact h ▸ rfl
    · simp at h
  · rintro rfl
    exact ofList?_toList a

end Octets

namespace Bytes

/-- The `width` low bytes of `v`, least significant first. -/
def littleEndian : (width v : Nat) → Bytes
  | 0, _ => []
  | width + 1, v => UInt8.ofNat v :: littleEndian width (v / 256)

/-- The number whose bytes, least significant first, are `b`. -/
def ofLittleEndian : Bytes → Nat
  | [] => 0
  | b :: rest => b.toNat + 256 * ofLittleEndian rest

/-- The `width` low bytes of `v`, most significant first. -/
def bigEndian (width v : Nat) : Bytes := (littleEndian width v).reverse

/-- The number whose bytes, most significant first, are `b`. -/
def ofBigEndian (b : Bytes) : Nat := b.foldl (fun acc x => 256 * acc + x.toNat) 0

@[simp] theorem length_littleEndian (width v : Nat) : (littleEndian width v).length = width := by
  induction width generalizing v with
  | zero => rfl
  | succ width ih => simp [littleEndian, ih]

@[simp] theorem length_bigEndian (width v : Nat) : (bigEndian width v).length = width := by
  simp [bigEndian]

theorem littleEndian_ofLittleEndian (b : Bytes) : littleEndian b.length (ofLittleEndian b) = b := by
  induction b with
  | nil => rfl
  | cons x rest ih =>
    have hx := x.toNat_lt
    have hdiv : (x.toNat + 256 * ofLittleEndian rest) / 256 = ofLittleEndian rest := by omega
    have hmod : UInt8.ofNat (x.toNat + 256 * ofLittleEndian rest) = x := by
      apply UInt8.toNat_inj.1
      rw [UInt8.toNat_ofNat']
      omega
    simp [littleEndian, ofLittleEndian, hdiv, hmod, ih]

theorem ofBigEndian_reverse (b : Bytes) : ofBigEndian b.reverse = ofLittleEndian b := by
  induction b with
  | nil => rfl
  | cons x rest ih =>
    simp only [ofBigEndian, List.reverse_cons, List.foldl_append, List.foldl_cons,
      List.foldl_nil] at ih ⊢
    rw [ih, ofLittleEndian]
    omega

/-- The consecutive pieces of `n + 1` bytes, after those in `acc`, which is newest first. -/
def piecesOnto (n : Nat) (acc : List Bytes) : Bytes → List Bytes
  | [] => acc.reverse
  | x :: rest => piecesOnto n ((x :: rest.take n) :: acc) (rest.drop n)
termination_by b => b.length
decreasing_by simp only [List.length_drop, List.length_cons]; omega

/-- Consecutive pieces of `n + 1` bytes; the last one may be shorter. -/
def pieces (n : Nat) (b : Bytes) : List Bytes := piecesOnto n [] b

theorem piecesOnto_eq (n : Nat) (acc : List Bytes) :
    ∀ b, piecesOnto n acc b = acc.reverse ++ pieces n b
  | [] => by simp [pieces, piecesOnto]
  | x :: rest => by
    rw [pieces, piecesOnto, piecesOnto, piecesOnto_eq n _ (rest.drop n),
      piecesOnto_eq n [_] (rest.drop n)]
    simp
termination_by b => b.length
decreasing_by all_goals (simp only [List.length_drop, List.length_cons]; omega)

@[simp] theorem pieces_nil (n : Nat) : pieces n [] = [] := by
  rw [pieces, piecesOnto, List.reverse_nil]

@[simp] theorem pieces_cons (n : Nat) (x : UInt8) (rest : Bytes) :
    pieces n (x :: rest) = (x :: rest.take n) :: pieces n (rest.drop n) := by
  rw [pieces, piecesOnto, piecesOnto_eq]
  rfl

end Bytes

end Attestor
