import Attestor.Key.Extended
import Attestor.Proofs.Curve
import Attestor.Proofs.Framing

/-! The bytes of keys and of key sets. A public key takes 33 bytes and an extended one 78, which
tell all of their parts. A key set has its count in front, so its bytes show where they end. -/

namespace Attestor

theorem Bytes.bigEndian_inj {width m n : ℕ} (hm : m < 256 ^ width) (hn : n < 256 ^ width) :
    bigEndian width m = bigEndian width n ↔ m = n := by
  rw [bigEndian, bigEndian, List.reverse_inj, littleEndian_inj hm hn]

theorem Bytes.framed_bigEndian (width : ℕ) : Framed (· < 256 ^ width) (bigEndian width) :=
  .of_length width (fun n _ => length_bigEndian width n)
    (fun _ _ hm hn h => (bigEndian_inj hm hn).1 h)

namespace PublicKey

theorem bytes_inj {p q : PublicKey} : bytes p = bytes q ↔ p = q := by
  refine ⟨fun h => ?_, fun h => h ▸ rfl⟩
  have hlist := congrArg Octets.toList h
  simp only [bytes, List.cons.injEq] at hlist
  obtain ⟨hparity, hx⟩ := hlist
  have hbound : Curve.fieldSize < 256 ^ 32 := by decide
  refine Curve.Point.eq_of_parity ((Bytes.bigEndian_inj (p.x_lt.trans hbound)
    (q.x_lt.trans hbound)).1 hx) ?_
  split_ifs at hparity with hp hq hq
  · rw [hp, hq]
  · exact absurd hparity (by decide)
  · exact absurd hparity (by decide)
  · omega

theorem eq_of_ofCoordinates? {x y : ℕ} {key : PublicKey}
    (h : Curve.Point.ofCoordinates? x y = some key) : key.x = x ∧ key.y = y := by
  simp only [Curve.Point.ofCoordinates?, Option.dite_none_right_eq_some, Option.some.injEq] at h
  obtain ⟨-, rfl⟩ := h
  exact ⟨rfl, rfl⟩

theorem eq_of_lift? {x : ℕ} {odd : Bool} {key : PublicKey}
    (h : Curve.Point.lift? x odd = some key) : key.x = x ∧ (key.y % 2 = 1 ↔ odd = true) := by
  simp only [Curve.Point.lift?] at h
  split at h
  · rename_i p hp
    simp only [Option.ite_none_right_eq_some, Option.some.injEq] at h
    obtain ⟨hodd, rfl⟩ := h
    exact ⟨(eq_of_ofCoordinates? hp).1, Iff.of_eq hodd⟩
  · cases h

/-- A compressed key is read from its own bytes only. -/
theorem eq_bytes_of_ofBytes? {b : Bytes} {key : PublicKey} (h : ofBytes? b = some key)
    (hlen : b.length = 33) : b = (bytes key).toList := by
  cases b with
  | nil => cases h
  | cons tag body =>
    have hbody : body.length = 32 := Nat.succ.inj hlen
    have hx : Bytes.bigEndian 32 (Bytes.ofBigEndian body) = body := by
      rw [← hbody, Bytes.bigEndian_ofBigEndian]
    have hbytes : (bytes key).toList =
      (if key.y % 2 = 1 then 0x03 else 0x02) :: Bytes.bigEndian 32 key.x := rfl
    simp only [ofBytes?, List.take_of_length_le hbody.le, if_pos hbody] at h
    split_ifs at h with heven hodd
    · obtain ⟨hkey, hparity⟩ := eq_of_lift? h
      rw [hbytes, hkey, hx, if_neg (by simp [hparity]), heven]
    · obtain ⟨hkey, hparity⟩ := eq_of_lift? h
      rw [hbytes, hkey, hx, if_pos (hparity.2 rfl), hodd]

theorem framed_bytes : Framed (fun _ : PublicKey => True) fun key => (bytes key).toList :=
  .of_length 33 (fun key _ => (bytes key).length_eq)
    (fun _ _ _ _ h => bytes_inj.1 (Octets.ext h))

end PublicKey

theorem Network.framed_publicVersion : Framed (fun _ : Network => True) publicVersion := by
  refine .of_length 4 (fun n _ => ExtendedKey.length_publicVersion n) fun m n _ _ h => ?_
  cases m <;> cases n <;> simp [publicVersion] at h ⊢

theorem ExtendedKey.framed_bytes : Framed (fun _ : ExtendedKey => True) fun key =>
    key.bytes.toList := by
  intro k l _ _ x y h
  simp only [bytes, List.append_assoc, List.cons_append] at h
  obtain ⟨hnetwork, h⟩ := Network.framed_publicVersion trivial trivial h
  obtain ⟨hdepth, h⟩ := List.cons.inj h
  obtain ⟨hparent, h⟩ := Octets.framed_toList 4 trivial trivial h
  obtain ⟨hchild, h⟩ := Bytes.framed_bigEndian 4 k.child.toNat_lt l.child.toNat_lt h
  obtain ⟨hchainCode, h⟩ := Octets.framed_toList 32 trivial trivial h
  obtain ⟨hpublicKey, hxy⟩ := PublicKey.framed_bytes trivial trivial h
  cases k; cases l
  cases UInt32.toNat_inj.1 hchild
  simp_all

theorem KeySet.toNat_count (set : KeySet) : (UInt8.ofNat set.size).toNat = set.keys.length :=
  UInt8.toNat_ofNat_of_lt' (Nat.lt_succ_of_le set.length_le)

theorem KeySet.framed_bytes : Framed (fun _ : KeySet => True) bytes := by
  intro k l _ _ x y h
  simp only [bytes, List.cons_append, List.cons.injEq] at h
  obtain ⟨hcount, h⟩ := h
  have hsize : k.keys.length = l.keys.length := by
    have hcount := congrArg UInt8.toNat hcount
    rwa [toNat_count, toNat_count] at hcount
  obtain ⟨hkeys, hxy⟩ := ExtendedKey.framed_bytes.flatMap hsize (by simp) (by simp) h
  cases k; cases l
  cases hkeys
  exact ⟨rfl, hxy⟩

theorem KeySet.bytes_inj {k l : KeySet} : k.bytes = l.bytes ↔ k = l :=
  KeySet.framed_bytes.inj trivial trivial

end Attestor
