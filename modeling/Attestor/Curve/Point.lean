/-! The curve y² = x³ + 7 over the prime field with 2²⁵⁶ − 2³² − 977 elements, and
multiplication of its points by numbers. Sums are formed in projective coordinates
(x/z², y/z³), so that a multiple costs a single inversion. -/

namespace Attestor.Curve

/-- The number of elements of the field. -/
def fieldSize : Nat := 0xfffffffffffffffffffffffffffffffffffffffffffffffffffffffefffffc2f

/-- The number of points of the curve. -/
def order : Nat := 0xfffffffffffffffffffffffffffffffebaaedce6af48a03bbfd25e8cd0364141

/-- Multiplies `acc` by `b ^ e`, modulo `m`, squaring along the bits of `e`. -/
def powerOnto (m acc b e : Nat) : Nat :=
  if h : e = 0 then acc
  else powerOnto m (if e % 2 = 1 then acc * b % m else acc) (b * b % m) (e / 2)
termination_by e
decreasing_by exact Nat.div_lt_self (Nat.pos_of_ne_zero h) (by decide)

/-- `b ^ e` modulo `m`. -/
def power (m b e : Nat) : Nat := powerOnto m (1 % m) (b % m) e

/-- The inverse modulo a prime; zero for zero. -/
def inverse (m b : Nat) : Nat := power m b (m - 2)

namespace Coordinate

def add (a b : Nat) : Nat := (a + b) % fieldSize

def sub (a b : Nat) : Nat := (a + (fieldSize - b)) % fieldSize

def mul (a b : Nat) : Nat := a * b % fieldSize

/-- The right-hand side of the curve's equation. -/
def cubic (x : Nat) : Nat := (x * x % fieldSize * x + 7) % fieldSize

/-- A square root of `a`, if it has one: the field's size is 3 modulo 4. -/
def root (a : Nat) : Nat := power fieldSize a ((fieldSize + 1) / 4)

end Coordinate

/-- A point of the curve other than the one at infinity. -/
structure Point where
  x : Nat
  y : Nat
  x_lt : x < fieldSize
  y_lt : y < fieldSize
  on_curve : Coordinate.mul y y = Coordinate.cubic x
  deriving DecidableEq

def Point.ofCoordinates? (x y : Nat) : Option Point :=
  if h : x < fieldSize ∧ y < fieldSize ∧ Coordinate.mul y y = Coordinate.cubic x then
    some ⟨x, y, h.1, h.2.1, h.2.2⟩
  else none

/-- The point with the given x whose y is odd or even as asked. -/
def Point.lift? (x : Nat) (odd : Bool) : Option Point :=
  let r := Coordinate.root (Coordinate.cubic x)
  let y := if (r % 2 = 1) = (odd = true) then r else fieldSize - r
  match Point.ofCoordinates? x y with
  | some p => if (p.y % 2 = 1) = (odd = true) then some p else none
  | none => none

/-- Projective coordinates; `z = 0` is the point at infinity. -/
structure Projective where
  x : Nat
  y : Nat
  z : Nat

namespace Projective

open Coordinate

def infinity : Projective := ⟨1, 1, 0⟩

def ofPoint (p : Point) : Projective := ⟨p.x, p.y, 1⟩

def double (p : Projective) : Projective :=
  if p.z = 0 ∨ p.y = 0 then infinity
  else
    let yy := mul p.y p.y
    let s := mul 4 (mul p.x yy)
    let m := mul 3 (mul p.x p.x)
    let x := sub (mul m m) (mul 2 s)
    ⟨x, sub (mul m (sub s x)) (mul 8 (mul yy yy)), mul 2 (mul p.y p.z)⟩

def add (p q : Projective) : Projective :=
  if p.z = 0 then q
  else if q.z = 0 then p
  else
    let pzz := mul p.z p.z
    let qzz := mul q.z q.z
    let u₁ := mul p.x qzz
    let u₂ := mul q.x pzz
    let s₁ := mul p.y (mul qzz q.z)
    let s₂ := mul q.y (mul pzz p.z)
    if u₁ = u₂ then if s₁ = s₂ then double p else infinity
    else
      let h := sub u₂ u₁
      let r := sub s₂ s₁
      let hh := mul h h
      let hhh := mul h hh
      let v := mul u₁ hh
      let x := sub (sub (mul r r) hhh) (mul 2 v)
      ⟨x, sub (mul r (sub v x)) (mul s₁ hhh), mul h (mul p.z q.z)⟩

/-- `acc + k · p`, doubling along the bits of `k`. -/
def multiplyOnto (acc p : Projective) (k : Nat) : Projective :=
  if h : k = 0 then acc
  else multiplyOnto (if k % 2 = 1 then add acc p else acc) (double p) (k / 2)
termination_by k
decreasing_by exact Nat.div_lt_self (Nat.pos_of_ne_zero h) (by decide)

/-- The affine point; `none` at infinity. -/
def toPoint? (p : Projective) : Option Point :=
  if p.z = 0 then none
  else
    let i := inverse fieldSize p.z
    let ii := mul i i
    Point.ofCoordinates? (mul p.x ii) (mul p.y (mul ii i))

end Projective

/-- The agreed generator of the group. -/
def generator : Projective :=
  ⟨0x79be667ef9dcbbac55a06295ce870b07029bfcdb2dce28d959f2815b16f81798,
   0x483ada7726a3c4655da4fbfc0e1108a8fd17b448a68554199c47d08ffb10d4b8, 1⟩

/-- `a · generator + b · p`. -/
def combine? (a b : Nat) (p : Projective) : Option Point :=
  (Projective.multiplyOnto (Projective.multiplyOnto Projective.infinity generator a) p b).toPoint?

end Attestor.Curve
