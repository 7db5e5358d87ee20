import Attestor.Proofs.Framing
import Attestor.Proofs.Reading
import Attestor.Proofs.Window.Apply
import Attestor.Window

/-! The stored form of a window. A window of at most 255 blocks is read from its own stored form
and from no other bytes; of a larger one the oldest blocks are left out before anything is
written, and its height stays. So bytes are refused only for their length, their version or their
count. -/

namespace Attestor.Window

variable {b : Bytes} {w : Window}

theorem encode_of_size_le (hw : w.size ≤ 255) : w.encode = Snapshot.version ::
    (Bytes.littleEndian 4 w.height.toNat ++
      UInt8.ofNat w.size :: w.hashes.flatMap Octets.toList) := by
  simp only [encode, trim_of_size_le hw]

/-- Nothing is written of the blocks that are left out. -/
theorem encode_trim (w : Window) : (w.trim 255).encode = w.encode := by
  have hsame : (w.trim 255).trim 255 = w.trim 255 :=
    trim_of_size_le (size_trim w 255 ▸ min_le_left 255 w.size)
  simp only [encode, hsame, height_trim]

theorem ofLittleEndian_four_lt (h₀ h₁ h₂ h₃ : UInt8) :
    Bytes.ofLittleEndian [h₀, h₁, h₂, h₃] < UInt32.size := by
  simpa using Bytes.ofLittleEndian_lt [h₀, h₁, h₂, h₃]

/-- The parts of a stored window, each in its place. -/
theorem decode_cons_eq_ok {version h₀ h₁ h₂ h₃ count : UInt8} {body : Bytes} :
    decode (version :: h₀ :: h₁ :: h₂ :: h₃ :: count :: body) = .ok w ↔
      version = Snapshot.version ∧ w.height.toNat = Bytes.ofLittleEndian [h₀, h₁, h₂, h₃] ∧
        w.size = count.toNat ∧ body = w.hashes.flatMap Octets.toList := by
  have hlength : ∀ hashes : List Digest, body = hashes.flatMap Octets.toList →
      body.length = hashes.length * 32 := by
    rintro hashes rfl
    exact Bytes.length_flatMap_of_length Octets.length_eq hashes
  simp only [decode]
  constructor
  · intro h
    split_ifs at h with hversion hcount
    split at h
    next hashes hread =>
      obtain rfl := Except.ok.inj h
      have hbody := Octets.mapM_pieces_eq_some.1 hread
      have hsize := hlength hashes hbody
      refine ⟨not_not.1 hversion, ?_, ?_, hbody⟩
      · exact UInt32.toNat_ofNat_of_lt' (ofLittleEndian_four_lt h₀ h₁ h₂ h₃)
      · simp only [size]
        omega
    next => cases h
  · rintro ⟨rfl, hnumber, hsize, hbody⟩
    have hcount : body.length = count.toNat * 32 := hsize ▸ hlength w.hashes hbody
    have hread : (Bytes.pieces 31 body).mapM (Octets.ofList? 32) = some w.hashes :=
      Octets.mapM_pieces_eq_some.2 hbody
    rw [if_neg (not_not.2 rfl), if_neg (not_not.2 hcount), hread, ← hnumber, UInt32.ofNat_toNat]

theorem length_encode (w : Window) : w.encode.length = 6 + 32 * min 255 w.size := by
  simp only [encode, List.length_cons, List.length_append, Bytes.length_littleEndian,
    Bytes.length_flatMap_of_length Octets.length_eq]
  rw [← size, size_trim]
  omega

/-- Bytes are too short for a window, or its parts can be told apart. -/
theorem short_or_parts (b : Bytes) : (b.length < 6 ∧ decode b = .error (.tooShort b.length)) ∨
    ∃ version h₀ h₁ h₂ h₃ count body, b = version :: h₀ :: h₁ :: h₂ :: h₃ :: count :: body := by
  match b with
  | [] | [_] | [_, _] | [_, _, _] | [_, _, _, _] | [_, _, _, _, _] =>
    exact .inl ⟨by simp, rfl⟩
  | version :: h₀ :: h₁ :: h₂ :: h₃ :: count :: body =>
    exact .inr ⟨version, h₀, h₁, h₂, h₃, count, body, rfl⟩

theorem encode_eq_cons_iff {version h₀ h₁ h₂ h₃ count : UInt8} {body : Bytes}
    (hw : w.size ≤ 255) : w.encode = version :: h₀ :: h₁ :: h₂ :: h₃ :: count :: body ↔
      version = Snapshot.version ∧ w.height.toNat = Bytes.ofLittleEndian [h₀, h₁, h₂, h₃] ∧
        w.size = count.toNat ∧ body = w.hashes.flatMap Octets.toList := by
  have hheight : Bytes.littleEndian 4 w.height.toNat = [h₀, h₁, h₂, h₃] ↔
      w.height.toNat = Bytes.ofLittleEndian [h₀, h₁, h₂, h₃] :=
    Bytes.littleEndian_eq_iff (by simpa using w.height.toNat_lt) rfl
  have hcount : UInt8.ofNat w.size = count ↔ w.size = count.toNat := by
    rw [← UInt8.toNat_inj, UInt8.toNat_ofNat_of_lt' (Nat.lt_succ_of_le hw)]
  rw [encode_of_size_le hw, List.cons.injEq, eq_comm, eq_comm (b := h₀ :: _),
    eq_append_iff (Bytes.length_littleEndian 4 _), ← hheight, ← hcount]
  simp [eq_comm]

/-- A window is read from nothing but its stored form, and only if all of it is stored. -/
theorem decode_eq_ok : decode b = .ok w ↔ w.size ≤ 255 ∧ b = w.encode := by
  rcases short_or_parts b with ⟨hshort, herror⟩ | ⟨version, h₀, h₁, h₂, h₃, count, body, rfl⟩
  · -- the stored form of the smallest window has six bytes
    have hne : b ≠ w.encode := by
      rintro rfl
      rw [length_encode] at hshort
      omega
    simp only [herror, reduceCtorEq, hne, and_false]
  · rw [decode_cons_eq_ok]
    constructor
    · intro h
      have hle : w.size ≤ 255 := h.2.2.1 ▸ Nat.le_of_lt_succ count.toNat_lt
      exact ⟨hle, ((encode_eq_cons_iff hle).2 h).symm⟩
    · rintro ⟨hle, h⟩
      exact (encode_eq_cons_iff hle).1 h.symm

theorem decode_encode (w : Window) : decode w.encode = .ok (w.trim 255) :=
  decode_eq_ok.2 ⟨size_trim w 255 ▸ min_le_left 255 w.size, (encode_trim w).symm⟩

/-- Bytes are read if they are six or more, of which the first is zero and the sixth counts the
blocks behind it. -/
theorem exists_decode_iff : (∃ w, decode b = .ok w) ↔ 6 ≤ b.length ∧ b[0]? = some 0 ∧
    ∃ count, b[5]? = some count ∧ (b.drop 6).length = 32 * count.toNat := by
  rcases short_or_parts b with ⟨hshort, herror⟩ | ⟨version, h₀, h₁, h₂, h₃, count, body, rfl⟩
  · simp [herror, Nat.not_le_of_lt hshort]
  · simp only [decode_cons_eq_ok]
    constructor
    · rintro ⟨w, rfl, -, hsize, rfl⟩
      refine ⟨by simp, rfl, count, rfl, ?_⟩
      have hlength := Bytes.length_flatMap_of_length (Octets.length_eq (n := 32)) w.hashes
      rw [← size, hsize, Nat.mul_comm] at hlength
      exact hlength
    · rintro ⟨-, hversion, count', hcount, hlength⟩
      cases hversion
      cases hcount
      obtain ⟨hashes, hsize, hbody⟩ := Octets.exists_eq_flatMap (hlength.trans (Nat.mul_comm _ _))
      refine ⟨⟨hashes, .ofNat (Bytes.ofLittleEndian [h₀, h₁, h₂, h₃])⟩, rfl, ?_, hsize, hbody⟩
      exact UInt32.toNat_ofNat_of_lt' (ofLittleEndian_four_lt h₀ h₁ h₂ h₃)

end Attestor.Window
