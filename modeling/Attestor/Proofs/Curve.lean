import Attestor.Bytes
import Attestor.Curve.Point
import Mathlib

/-! The coordinates of points form a field, since their number is prime, and a point is told by x
and the parity of y: the two points with one x differ in it. That the number is prime is shown by
Lucas's test: a base whose power is one at the number less one, and at none of its quotients by a
prime. The large prime divisors are shown to be prime in the same way. -/

namespace Attestor.Curve

theorem powerOnto_eq {m acc : ℕ} (hacc : acc % m = acc) (b e : ℕ) :
    powerOnto m acc b e = acc * b ^ e % m := by
  induction e using Nat.strong_induction_on generalizing acc b with
  | _ e ih =>
    rw [powerOnto]
    by_cases he : e = 0
    · rw [dif_pos he, he, pow_zero, mul_one, hacc]
    · have hhalf : e / 2 < e := Nat.div_lt_self (Nat.pos_of_ne_zero he) (by decide)
      rw [dif_neg he]
      have hsquare : (b * b % m) ^ (e / 2) ≡ b ^ (2 * (e / 2)) [MOD m] := by
        rw [pow_mul, sq]
        exact (Nat.mod_modEq _ _).pow _
      by_cases hodd : e % 2 = 1
      · rw [if_pos hodd, ih _ hhalf (Nat.mod_mod _ _)]
        refine ((Nat.mod_modEq _ _).mul hsquare).trans ?_
        rw [mul_assoc, ← pow_succ', show 2 * (e / 2) + 1 = e by omega]
      · rw [if_neg hodd, ih _ hhalf hacc]
        refine (Nat.ModEq.refl acc).mul (hsquare.trans ?_)
        rw [show 2 * (e / 2) = e by omega]

theorem power_eq (m b e : ℕ) : power m b e = b ^ e % m := by
  rw [power, powerOnto_eq (Nat.mod_mod _ _)]
  have h : 1 % m * (b % m) ^ e ≡ 1 * b ^ e [MOD m] :=
    (Nat.mod_modEq _ _).mul ((Nat.mod_modEq _ _).pow _)
  rwa [one_mul] at h

/-- Lucas's test, given the prime divisors of `n - 1`, each as often as it divides. -/
theorem prime_of_power {n : ℕ} (base : ℕ) (divisors : List ℕ) (hprod : divisors.prod = n - 1)
    (hone : power n base (n - 1) = 1) (hne : ∀ q ∈ divisors, power n base ((n - 1) / q) ≠ 1)
    (hprime : ∀ q ∈ divisors, q.Prime) : n.Prime := by
  have hn : 1 % n = 1 := by rw [← hone, power_eq, Nat.mod_mod]
  have hcast : ∀ e, (base : ZMod n) ^ e = 1 ↔ power n base e = 1 := by
    intro e
    rw [power_eq, ← Nat.cast_pow, ← Nat.cast_one, ZMod.natCast_eq_natCast_iff', hn]
  refine lucas_primality n base ((hcast _).2 hone) fun q hq hdvd => ?_
  rw [← hprod] at hdvd
  obtain ⟨r, hr, hqr⟩ := (Prime.dvd_prod_iff hq.prime).1 hdvd
  obtain rfl := (Nat.prime_dvd_prime_iff_eq hq (hprime r hr)).1 hqr
  exact fun h => hne q hr ((hcast _).1 h)

theorem prime_132896956044521568488119 : Nat.Prime 132896956044521568488119 := by
  have h₁ : Nat.Prime 173378833005251801 :=
    prime_of_power 6 [2, 2, 2, 5, 5, 2621, 24809, 13331831] (by decide +kernel)
      (by decide +kernel) (by decide +kernel) (by norm_num)
  have h₂ : Nat.Prime 22149492674086928081353 :=
    prime_of_power 5 [173378833005251801, 2, 2, 2, 3, 5323] (by decide +kernel)
      (by decide +kernel) (by decide +kernel) (List.forall_mem_cons.2 ⟨h₁, by norm_num⟩)
  exact prime_of_power 6 [22149492674086928081353, 2, 3] (by decide +kernel) (by decide +kernel)
    (by decide +kernel) (List.forall_mem_cons.2 ⟨h₂, by norm_num⟩)

theorem prime_255515944373312847190720520512484175977 :
    Nat.Prime 255515944373312847190720520512484175977 :=
  prime_of_power 3 [2, 2, 2, 7, 7, 11, 1627, 2657, 4423, 41201, 96557, 7240687, 107590001]
    (by decide +kernel) (by decide +kernel) (by decide +kernel) (by norm_num)

theorem prime_fieldSize : fieldSize.Prime := by
  have h : Nat.Prime 205115282021455665897114700593932402728804164701536103180137503955397371 :=
    prime_of_power 10 [132896956044521568488119, 255515944373312847190720520512484175977,
        2, 3, 5, 29, 29, 31, 7723] (by decide +kernel) (by decide +kernel) (by decide +kernel)
      (List.forall_mem_cons.2 ⟨prime_132896956044521568488119, List.forall_mem_cons.2
        ⟨prime_255515944373312847190720520512484175977, by norm_num⟩⟩)
  exact prime_of_power 3
    [205115282021455665897114700593932402728804164701536103180137503955397371, 2, 3, 7, 13441]
    (by decide +kernel) (by decide +kernel) (by decide +kernel)
    (List.forall_mem_cons.2 ⟨h, by norm_num⟩)

theorem Coordinate.cast_mul (a b : ℕ) :
    ((mul a b : ℕ) : ZMod fieldSize) = (a : ZMod fieldSize) * b := by
  rw [mul, ZMod.natCast_mod, Nat.cast_mul]

theorem Coordinate.mul_eq_mul_iff {a b c d : ℕ} :
    mul a b = mul c d ↔ (a : ZMod fieldSize) * b = c * d := by
  rw [← Nat.cast_mul, ← Nat.cast_mul, ZMod.natCast_eq_natCast_iff']
  rfl

/-- Coordinates with one square are the same or opposite. -/
theorem eq_or_add_eq_of_mul_self {a b : ℕ} (ha : a < fieldSize) (hb : b < fieldSize)
    (h : Coordinate.mul a a = Coordinate.mul b b) : a = b ∨ a + b = fieldSize := by
  have : Fact fieldSize.Prime := ⟨prime_fieldSize⟩
  rcases mul_self_eq_mul_self_iff.1 (Coordinate.mul_eq_mul_iff.1 h) with h | h
  · rw [ZMod.natCast_eq_natCast_iff', Nat.mod_eq_of_lt ha, Nat.mod_eq_of_lt hb] at h
    exact .inl h
  · -- opposite values add up to the size of the field, or both are zero
    rw [eq_neg_iff_add_eq_zero, ← Nat.cast_add, ZMod.natCast_eq_zero_iff] at h
    obtain ⟨k, hk⟩ := h
    obtain rfl | rfl : k = 0 ∨ k = 1 := by
      have : k < 2 := by
        by_contra hle
        have := Nat.mul_le_mul_left fieldSize (not_lt.1 hle)
        omega
      omega
    · exact .inl (by omega)
    · exact .inr (by omega)

theorem fieldSize_odd : fieldSize % 2 = 1 := by decide

/-- A point is told by x and the parity of y. -/
theorem Point.eq_of_parity {p q : Point} (hx : p.x = q.x) (hy : p.y % 2 = q.y % 2) : p = q := by
  have hsquare : Coordinate.mul p.y p.y = Coordinate.mul q.y q.y := by
    rw [p.on_curve, q.on_curve, hx]
  have hyy : p.y = q.y := by
    rcases eq_or_add_eq_of_mul_self p.y_lt q.y_lt hsquare with h | h
    · exact h
    · have := fieldSize_odd
      omega
  obtain ⟨x, y, _, _, _⟩ := p
  obtain ⟨x', y', _, _, _⟩ := q
  obtain rfl : x = x' := hx
  obtain rfl : y = y' := hyy
  rfl

/-- The generator as a point, which is the public key of the number one. -/
def Point.generator : Point where
  x := 0x79be667ef9dcbbac55a06295ce870b07029bfcdb2dce28d959f2815b16f81798
  y := 0x483ada7726a3c4655da4fbfc0e1108a8fd17b448a68554199c47d08ffb10d4b8
  x_lt := by decide +kernel
  y_lt := by decide +kernel
  on_curve := by decide +kernel

/-! ### Roots

The field's size is 3 modulo 4, so a power of a square is a root of it. A root is y or its
opposite, and these differ in parity, so the parity picks y. -/

theorem Coordinate.cast_root (a : ℕ) :
    ((root a : ℕ) : ZMod fieldSize) = (a : ZMod fieldSize) ^ ((fieldSize + 1) / 4) := by
  rw [root, power_eq, ZMod.natCast_mod, Nat.cast_pow]

theorem Coordinate.root_lt (a : ℕ) : root a < fieldSize := by
  rw [root, power_eq]
  exact Nat.mod_lt _ (by decide)

/-- What is taken as the root of a square is one. -/
theorem Coordinate.root_mul_self (y : ℕ) :
    mul (root (mul y y)) (root (mul y y)) = mul y y := by
  have : Fact fieldSize.Prime := ⟨prime_fieldSize⟩
  have hexponent : 2 * ((fieldSize + 1) / 4 + (fieldSize + 1) / 4) = fieldSize + 1 := by decide
  rw [mul_eq_mul_iff, cast_root, cast_mul]
  calc ((y : ZMod fieldSize) * y) ^ ((fieldSize + 1) / 4) * (y * y) ^ ((fieldSize + 1) / 4)
      = (y : ZMod fieldSize) ^ (fieldSize + 1) := by rw [← pow_add, ← sq, ← pow_mul, hexponent]
    _ = y * y := by rw [pow_succ, ZMod.pow_card]

/-- The parity finds every point again. -/
theorem Point.lift?_of_parity {p : Point} {odd : Bool} (hodd : p.y % 2 = 1 ↔ odd = true) :
    lift? p.x odd = some p := by
  have hroot := eq_or_add_eq_of_mul_self (Coordinate.root_lt _) p.y_lt
    (Coordinate.root_mul_self p.y)
  have hy : (if (Coordinate.root (Coordinate.mul p.y p.y) % 2 = 1) = (odd = true) then
      Coordinate.root (Coordinate.mul p.y p.y)
      else fieldSize - Coordinate.root (Coordinate.mul p.y p.y)) = p.y := by
    have := fieldSize_odd
    simp only [← hodd, eq_iff_iff]
    split_ifs with h <;> omega
  have hpoint : ofCoordinates? p.x p.y = some p := dif_pos ⟨p.x_lt, p.y_lt, p.on_curve⟩
  simp only [lift?, ← p.on_curve, hy, hpoint, propext hodd, if_true]

theorem on_curve_iff {x y : ℕ} :
    Coordinate.mul y y = Coordinate.cubic x ↔ y ^ 2 ≡ x ^ 3 + 7 [MOD fieldSize] := by
  have hcubic : Coordinate.cubic x = (x ^ 3 + 7) % fieldSize := by
    refine ((Nat.mod_modEq (x * x) fieldSize).mul_right x).add_right 7 |>.trans ?_
    rw [pow_succ, sq]
  rw [hcubic, Coordinate.mul, ← sq]
  rfl

/-- The compressed form of a solution of the curve's equation: the parity of y, then x. -/
def IsCompressed (b : Bytes) : Prop :=
  ∃ x y : ℕ, x < fieldSize ∧ y < fieldSize ∧ y ^ 2 ≡ x ^ 3 + 7 [MOD fieldSize] ∧
    b = (if y % 2 = 1 then 0x03 else 0x02) :: Bytes.bigEndian 32 x

end Attestor.Curve
