import Attestor.Bytes
import Attestor.Chain.Header
import Mathlib

/-! Forms that show where they end. When fields are written one after another with nothing between
them, what can be told from the bytes rests on each field's own form. Compact sizes show their end
because the reader of chain data finds it, forms of a fixed length because their length is known,
and counted lists because their count and their members do. -/

namespace Attestor.Bytes

/-! ### Numbers

Writing a number in a fixed width and reading it back gives the number modulo the width's bound,
and what is read lies below that bound. -/

theorem ofLittleEndian_littleEndian (width v : Nat) :
    ofLittleEndian (littleEndian width v) = v % 256 ^ width := by
  induction width generalizing v with
  | zero => simp [littleEndian, ofLittleEndian, Nat.mod_one]
  | succ width ih =>
    have h := @Nat.mod_mul 256 (256 ^ width) v
    rw [littleEndian, ofLittleEndian, ih, UInt8.toNat_ofNat',
      show 256 ^ (width + 1) = 256 * 256 ^ width from Nat.pow_succ', h]

theorem ofLittleEndian_lt (b : Bytes) : ofLittleEndian b < 256 ^ b.length := by
  induction b with
  | nil => simp [ofLittleEndian]
  | cons x rest ih =>
    have hx := x.toNat_lt
    simp only [ofLittleEndian, List.length_cons, Nat.pow_succ']
    omega

theorem littleEndian_eq_iff {width v : ℕ} {b : Bytes} (hv : v < 256 ^ width)
    (hb : b.length = width) : littleEndian width v = b ↔ v = ofLittleEndian b := by
  constructor
  · rintro rfl
    rw [ofLittleEndian_littleEndian, Nat.mod_eq_of_lt hv]
  · rintro rfl
    rw [← hb, littleEndian_ofLittleEndian]

theorem ofBigEndian_lt (b : Bytes) : ofBigEndian b < 256 ^ b.length := by
  have h := ofLittleEndian_lt b.reverse
  rwa [← ofBigEndian_reverse, List.reverse_reverse, List.length_reverse] at h

theorem ofBigEndian_bigEndian (width v : Nat) :
    ofBigEndian (bigEndian width v) = v % 256 ^ width := by
  rw [bigEndian, ofBigEndian_reverse, ofLittleEndian_littleEndian]

theorem bigEndian_ofBigEndian (b : Bytes) : bigEndian b.length (ofBigEndian b) = b := by
  have h := ofBigEndian_reverse b.reverse
  rw [List.reverse_reverse] at h
  rw [h, bigEndian, ← List.length_reverse, littleEndian_ofLittleEndian, List.reverse_reverse]

end Attestor.Bytes

/-! ### Framed forms -/

namespace Attestor

variable {α β : Type}

/-- Among the values that satisfy `P`, the form of one tells the value and where it ends,
whatever follows it. -/
def Framed (P : α → Prop) (f : α → Bytes) : Prop :=
  ∀ ⦃a b : α⦄, P a → P b → ∀ ⦃x y : Bytes⦄, f a ++ x = f b ++ y → a = b ∧ x = y

namespace Framed

theorem of_length {P : α → Prop} {f : α → Bytes} (n : ℕ) (hlen : ∀ a, P a → (f a).length = n)
    (hinj : ∀ a b, P a → P b → f a = f b → a = b) : Framed P f := by
  intro a b ha hb x y h
  obtain ⟨hf, hxy⟩ := List.append_inj h ((hlen a ha).trans (hlen b hb).symm)
  exact ⟨hinj a b ha hb hf, hxy⟩

theorem inj {P : α → Prop} {f : α → Bytes} (hf : Framed P f) {a b : α} (ha : P a) (hb : P b) :
    f a = f b ↔ a = b :=
  ⟨fun h => (hf ha hb (congrArg (· ++ []) h)).1, fun h => h ▸ rfl⟩

/-- Lists of one length, written member after member. -/
theorem flatMap {P : α → Prop} {f : α → Bytes} (hf : Framed P f) {l m : List α}
    (hlen : l.length = m.length) (hl : ∀ a ∈ l, P a) (hm : ∀ a ∈ m, P a) {x y : Bytes}
    (h : l.flatMap f ++ x = m.flatMap f ++ y) : l = m ∧ x = y := by
  induction l generalizing m with
  | nil =>
    obtain rfl : m = [] := List.length_eq_zero_iff.1 hlen.symm
    exact ⟨rfl, h⟩
  | cons a l ih =>
    obtain ⟨b, m, rfl⟩ := List.exists_cons_of_length_eq_add_one hlen.symm
    simp only [List.flatMap_cons, List.append_assoc] at h
    obtain ⟨rfl, hrest⟩ := hf (hl a (by simp)) (hm b (by simp)) h
    obtain ⟨rfl, hxy⟩ := ih (by simpa using hlen) (fun c hc => hl c (by simp [hc]))
      (fun c hc => hm c (by simp [hc])) hrest
    exact ⟨rfl, hxy⟩

end Framed

namespace Bytes

/-- Values that are each written in as many bytes. -/
theorem length_flatMap_of_length {f : α → Bytes} {n : ℕ} (hf : ∀ a, (f a).length = n)
    (l : List α) : (l.flatMap f).length = l.length * n := by
  rw [List.length_flatMap, List.map_congr_left fun a _ => hf a, List.map_const',
    List.sum_replicate, smul_eq_mul]

theorem littleEndian_inj {width m n : ℕ} (hm : m < 256 ^ width) (hn : n < 256 ^ width) :
    littleEndian width m = littleEndian width n ↔ m = n := by
  constructor
  · intro h
    have := congrArg ofLittleEndian h
    rwa [ofLittleEndian_littleEndian, ofLittleEndian_littleEndian, Nat.mod_eq_of_lt hm,
      Nat.mod_eq_of_lt hn] at this
  · rintro rfl
    rfl

theorem framed_littleEndian (width : ℕ) : Framed (· < 256 ^ width) (littleEndian width) :=
  .of_length width (fun n _ => length_littleEndian width n)
    (fun _ _ hm hn h => (littleEndian_inj hm hn).1 h)

end Bytes

theorem Octets.framed_toList (n : ℕ) : Framed (fun _ : Octets n => True) Octets.toList :=
  .of_length n (fun a _ => a.length_eq) (fun _ _ _ _ h => Octets.ext h)

namespace Chain

namespace Reader

theorem take_append (b x : Bytes) : take b.length (b ++ x) = some (b, x) := by
  simp [take, List.splitAt_eq]

theorem number_littleEndian {width n : ℕ} (hn : n < 256 ^ width) (x : Bytes) :
    number width (Bytes.littleEndian width n ++ x) = some (n, x) := by
  have ht := take_append (Bytes.littleEndian width n) x
  rw [Bytes.length_littleEndian] at ht
  simp [number, bind, StateT.bind, ht, pure, StateT.pure, Bytes.ofLittleEndian_littleEndian,
    Nat.mod_eq_of_lt hn]

theorem above_littleEndian {low width n : ℕ} (hlow : low < n) (hn : n < 256 ^ width)
    (x : Bytes) : above low width (Bytes.littleEndian width n ++ x) = some (n, x) := by
  simp [above, bind, StateT.bind, number_littleEndian hn, hlow, pure, StateT.pure]

/-- The marker in front of a longer size, or the size itself. -/
theorem number_one (b : UInt8) (x : Bytes) : number 1 (b :: x) = some (b.toNat, x) := by
  have hlt : b.toNat < 256 ^ 1 := by simpa using b.toNat_lt
  have h := number_littleEndian hlt x
  simpa [Bytes.littleEndian] using h

/-- What is written as a compact size is read back, and no more is taken. -/
theorem compact_compact {n : ℕ} (hn : n < 2 ^ 64) (x : Bytes) :
    compact (Chain.compact n ++ x) = some (n, x) := by
  unfold compact Chain.compact
  split_ifs with h1 h2 h3
  · have hb : (UInt8.ofNat n).toNat = n := by rw [UInt8.toNat_ofNat']; omega
    simp [bind, StateT.bind, number_one, hb, h1, pure, StateT.pure]
  · simp [bind, StateT.bind, number_one, above_littleEndian (show 0xfc < n by omega)
      (show n < 256 ^ 2 by omega)]
  · simp [bind, StateT.bind, number_one, above_littleEndian (show 0xffff < n by omega)
      (show n < 256 ^ 4 by omega)]
  · simp [bind, StateT.bind, number_one, above_littleEndian (show 0xffffffff < n by omega)
      (show n < 256 ^ 8 by omega)]

end Reader

theorem framed_compact : Framed (· < 2 ^ 64) compact := by
  intro m n hm hn x y h
  have hr := Reader.compact_compact hm x
  rw [h, Reader.compact_compact hn y] at hr
  simp only [Option.some.injEq, Prod.mk.injEq] at hr
  exact ⟨hr.1.symm, hr.2.symm⟩

theorem compact_ne_nil (n : ℕ) : compact n ≠ [] := by
  unfold compact
  split_ifs <;> simp

/-- A compact size that starts with a byte below the markers is that byte. -/
theorem compact_append_eq_cons {n : ℕ} {x y : Bytes} {b : UInt8} (hb : b.toNat < 0xfd)
    (h : compact n ++ x = b :: y) : n = b.toNat ∧ x = y := by
  unfold compact at h
  split_ifs at h with h1 h2 h3
  · simp only [List.cons_append, List.nil_append, List.cons.injEq] at h
    refine ⟨?_, h.2⟩
    rw [← h.1, UInt8.toNat_ofNat']
    omega
  all_goals
    simp only [List.cons_append, List.cons.injEq] at h
    rw [← h.1] at hb
    exact absurd hb (by decide)

/-- A list after its count. -/
theorem framed_counted {P : α → Prop} {f : α → Bytes} (hf : Framed P f) :
    Framed (fun l : List α => l.length < 2 ^ 64 ∧ ∀ a ∈ l, P a)
      (fun l => compact l.length ++ l.flatMap f) := by
  intro l m hl hm x y h
  simp only [List.append_assoc] at h
  obtain ⟨hlen, h⟩ := framed_compact hl.1 hm.1 h
  exact hf.flatMap hlen hl.2 hm.2 h

end Chain

end Attestor

/-! ### Headers

A header is read back from its bytes, field by field: what is read off the front of a byte
string leaves the rest as it is. -/

namespace Attestor

namespace Chain.Reader

theorem bind_of_eq_some {α β : Type} {r : Reader α} {b rest : Bytes} {a : α}
    (h : r b = some (a, rest)) (f : α → Reader β) : (r >>= f) b = f a rest := by
  change (r b >>= fun p => f p.1 p.2) = _
  rw [h]
  rfl

theorem octets_append {n : ℕ} (v : Octets n) (rest : Bytes) :
    octets n (v.toList ++ rest) = some (v, rest) := by
  have htake := take_append v.toList rest
  rw [v.length_eq] at htake
  rw [octets, bind_of_eq_some htake, Octets.ofList?_toList]
  rfl

theorem u32_append (v : UInt32) (rest : Bytes) :
    u32 (Bytes.littleEndian 4 v.toNat ++ rest) = some (v, rest) := by
  have hv : v.toNat < 256 ^ 4 := v.toNat_lt
  rw [u32, bind_of_eq_some (number_littleEndian hv rest), UInt32.ofNat_toNat]
  rfl

end Chain.Reader

namespace Header

open Chain.Reader

theorem reader_bytes (h : Header) : reader h.bytes = some (h, []) := by
  rw [← List.append_nil h.bytes, bytes, reader]
  simp only [List.append_assoc]
  rw [bind_of_eq_some (u32_append _ _), bind_of_eq_some (octets_append _ _),
    bind_of_eq_some (octets_append _ _), bind_of_eq_some (u32_append _ _),
    bind_of_eq_some (u32_append _ _), bind_of_eq_some (u32_append _ _)]
  rfl

theorem ofBytes_bytes (h : Header) : ofBytes h.bytes = .ok h := by
  rw [ofBytes, whole, reader_bytes]

end Header

end Attestor
