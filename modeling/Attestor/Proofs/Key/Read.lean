import Attestor.Proofs.Curve
import Attestor.Proofs.Key.Bytes
import Attestor.Proofs.Reading

/-! Reading the stored forms of keys and of key sets. A compressed key is read from any solution
of the curve's equation, an extended key from any 78 bytes that have a public version in front and
a compressed key at their end, and a key set from any one to 255 of these after their count. Each
is read from its own bytes only. -/

namespace Attestor

namespace PublicKey

variable {b : Bytes} {key : PublicKey}

theorem ofBytes?_bytes (key : PublicKey) : ofBytes? (bytes key).toList = some key := by
  have hx : Bytes.ofBigEndian (Bytes.bigEndian 32 key.x) = key.x := by
    rw [Bytes.ofBigEndian_bigEndian]
    exact Nat.mod_eq_of_lt (key.x_lt.trans (by decide))
  have htake : (Bytes.bigEndian 32 key.x).take 32 = Bytes.bigEndian 32 key.x :=
    List.take_of_length_le (Bytes.length_bigEndian 32 key.x).le
  simp only [bytes, ofBytes?, Bytes.length_bigEndian, if_true, htake, hx]
  by_cases hy : key.y % 2 = 1
  · rw [if_pos hy, if_neg (by decide), if_pos rfl, Curve.Point.lift?_of_parity (by simp [hy])]
  · rw [if_neg hy, if_pos rfl, Curve.Point.lift?_of_parity (by simp [hy])]

theorem ofBytes?_eq_some (hb : b.length = 33) :
    ofBytes? b = some key ↔ b = (bytes key).toList :=
  ⟨fun h => eq_bytes_of_ofBytes? h hb, fun h => h ▸ ofBytes?_bytes key⟩

theorem isCompressed_iff : Curve.IsCompressed b ↔ ∃ key, b = (bytes key).toList := by
  constructor
  · rintro ⟨x, y, hx, hy, hcurve, rfl⟩
    exact ⟨⟨x, y, hx, hy, Curve.on_curve_iff.2 hcurve⟩, rfl⟩
  · rintro ⟨key, rfl⟩
    exact ⟨key.x, key.y, key.x_lt, key.y_lt, Curve.on_curve_iff.1 key.on_curve, rfl⟩

end PublicKey

namespace Network

theorem ofPublicVersion?_eq_some {version : Bytes} {network : Network} :
    ofPublicVersion? version = some network ↔ version = network.publicVersion := by
  constructor
  · intro h
    simp only [ofPublicVersion?] at h
    split_ifs at h with hmain htest
    · exact Option.some.inj h ▸ hmain
    · exact Option.some.inj h ▸ htest
  · rintro rfl
    cases network <;> rfl

theorem publicVersion_ne_privateVersion (n m : Network) : n.publicVersion ≠ m.privateVersion := by
  cases n <;> cases m <;> decide

theorem length_privateVersion (n : Network) : n.privateVersion.length = 4 := by cases n <;> rfl

end Network

namespace ExtendedKey

variable {b : Bytes} {key : ExtendedKey}

theorem length_bytes (key : ExtendedKey) : key.bytes.toList.length = 77 + 1 := key.bytes.length_eq

/-- Where each part of a key stands in its bytes. -/
theorem eq_bytes_iff : b = key.bytes.toList ↔
    b.take 4 = key.network.publicVersion ∧ (b.drop 4).take 1 = [key.depth] ∧
    (b.drop 5).take 4 = key.parent.toList ∧
    (b.drop 9).take 4 = Bytes.bigEndian 4 key.child.toNat ∧
    (b.drop 13).take 32 = key.chainCode.toList ∧
    b.drop 45 = (PublicKey.bytes key.publicKey).toList := by
  rw [bytes, eq_append_iff (length_publicVersion _), ← List.singleton_append,
    eq_append_iff rfl, List.append_assoc, List.append_assoc, eq_append_iff key.parent.length_eq,
    eq_append_iff (Bytes.length_bigEndian 4 _), eq_append_iff key.chainCode.length_eq]
  simp only [List.drop_drop, List.length_singleton]

theorem length_part (hb : b.length = size) {i n : ℕ} (h : i + n ≤ 78) :
    ((b.drop i).take n).length = n := by
  rw [List.length_take, List.length_drop, hb, size]
  omega

theorem take_one_eq_iff {l : Bytes} (hl : l ≠ []) {x : UInt8} :
    l.take 1 = [x] ↔ l.headD 0 = x := by
  obtain ⟨y, rest, rfl⟩ := List.exists_cons_of_ne_nil hl
  simp

theorem drop_four_ne_nil (hb : b.length = size) : b.drop 4 ≠ [] := by
  rw [ne_eq, List.drop_eq_nil_iff, hb]
  decide

/-- Bytes from whose places the parts of a key are read are its bytes. -/
theorem eq_bytes_of_parts (hb : b.length = size) (hversion : b.take 4 = key.network.publicVersion)
    (hdepth : (b.drop 4).headD 0 = key.depth) (hparent : (b.drop 5).take 4 = key.parent.toList)
    (hchild : .ofNat (Bytes.ofBigEndian ((b.drop 9).take 4)) = key.child)
    (hchainCode : (b.drop 13).take 32 = key.chainCode.toList)
    (hpublicKey : b.drop 45 = (PublicKey.bytes key.publicKey).toList) : b = key.bytes.toList := by
  refine eq_bytes_iff.2 ⟨hversion, (take_one_eq_iff (drop_four_ne_nil hb)).2 hdepth, hparent, ?_,
    hchainCode, hpublicKey⟩
  have hlength : ((b.drop 9).take 4).length = 4 := length_part hb (by decide)
  have hlt := Bytes.ofBigEndian_lt ((b.drop 9).take 4)
  have hback := Bytes.bigEndian_ofBigEndian ((b.drop 9).take 4)
  rw [hlength] at hlt hback
  rw [← hchild, UInt32.toNat_ofNat_of_lt' hlt, hback]

theorem ofBytes_eq_ok : ofBytes b = .ok key ↔ b = key.bytes.toList := by
  constructor
  · intro h
    simp only [ofBytes] at h
    split_ifs at h with hlength hprivate
    rw [ne_eq, not_not] at hlength
    split at h
    · exact nomatch h
    · rename_i network parent chainCode publicKey hversion hparent hchainCode hpublicKey
      obtain rfl := Except.ok.inj h
      have hkey : (b.drop 45).length = 33 := by
        rw [List.length_drop, hlength]
        rfl
      exact eq_bytes_of_parts hlength (Network.ofPublicVersion?_eq_some.1 hversion) rfl
        (Octets.ofList?_eq_some.1 hparent) rfl (Octets.ofList?_eq_some.1 hchainCode)
        ((PublicKey.ofBytes?_eq_some hkey).1 hpublicKey)
    · exact nomatch h
  · intro h
    have hlength : b.length = size := h ▸ key.bytes.length_eq
    obtain ⟨hversion, hdepth, hparent, hchild, hchainCode, hpublicKey⟩ := eq_bytes_iff.1 h
    have hhead : (b.drop 4).headD 0 = key.depth :=
      (take_one_eq_iff (drop_four_ne_nil hlength)).1 hdepth
    have hnetwork : Network.ofPublicVersion? key.network.publicVersion = some key.network :=
      Network.ofPublicVersion?_eq_some.2 rfl
    have hnumber : UInt32.ofNat (Bytes.ofBigEndian (Bytes.bigEndian 4 key.child.toNat)) =
        key.child := by
      rw [Bytes.ofBigEndian_bigEndian, Nat.mod_eq_of_lt (show _ < 256 ^ 4 from key.child.toNat_lt),
        UInt32.ofNat_toNat]
    simp only [ofBytes, hlength, hversion, hparent, hchild, hchainCode, hpublicKey, hhead, hnumber,
      hnetwork, Octets.ofList?_toList, PublicKey.ofBytes?_bytes,
      Network.publicVersion_ne_privateVersion, or_self, if_false, ne_eq, not_true_eq_false]

theorem ofBytes_of_privateVersion (hb : b.length = size) {network : Network}
    (hversion : network.privateVersion <+: b) : ofBytes b = .error .privateKey := by
  have htake : b.take 4 = network.privateVersion := by
    rw [List.prefix_iff_eq_take.1 hversion, network.length_privateVersion]
  have hprivate : b.take 4 = Network.mainnet.privateVersion ∨
      b.take 4 = Network.testnet.privateVersion := by
    cases network with
    | mainnet => exact .inl htake
    | testnet => exact .inr htake
  rw [ofBytes, if_neg (not_not.2 hb)]
  exact if_pos hprivate

/-- As many bytes as are stored of a key, with the public version of a network in front and a
compressed point of the curve at their end. -/
def IsBlock (b : Bytes) : Prop :=
  b.length = size ∧ (∃ network : Network, network.publicVersion <+: b) ∧
    ∃ point, Curve.IsCompressed point ∧ point <:+ b

theorem isBlock_iff : IsBlock b ↔ ∃ key : ExtendedKey, b = key.bytes.toList := by
  constructor
  · rintro ⟨hb, ⟨network, hversion⟩, point, hpoint, hend⟩
    obtain ⟨publicKey, rfl⟩ := PublicKey.isCompressed_iff.1 hpoint
    have hparent : ((b.drop 5).take 4).length = 4 := length_part hb (by decide)
    have hchainCode : ((b.drop 13).take 32).length = 32 := length_part hb (by decide)
    have htake : b.take 4 = network.publicVersion := by
      rw [List.prefix_iff_eq_take.1 hversion, length_publicVersion]
    have hdrop : b.drop 45 = (PublicKey.bytes publicKey).toList := by
      rw [List.suffix_iff_eq_drop.1 hend, (PublicKey.bytes publicKey).length_eq, hb, size]
    exact ⟨⟨network, (b.drop 4).headD 0, ⟨_, hparent⟩,
      .ofNat (Bytes.ofBigEndian ((b.drop 9).take 4)), ⟨_, hchainCode⟩, publicKey⟩,
      eq_bytes_of_parts hb htake rfl rfl rfl rfl hdrop⟩
  · rintro ⟨key, rfl⟩
    refine ⟨key.bytes.length_eq, ⟨key.network, _, rfl⟩, _,
      PublicKey.isCompressed_iff.2 ⟨key.publicKey, rfl⟩, ?_⟩
    obtain ⟨-, -, -, -, -, hpublicKey⟩ := eq_bytes_iff.1 (rfl : key.bytes.toList = _)
    exact hpublicKey ▸ List.drop_suffix 45 _

end ExtendedKey

namespace KeySet

variable {b : Bytes} {set : KeySet}

theorem ofKeys_eq_ok {keys : List ExtendedKey} : ofKeys keys = .ok set ↔ keys = set.keys := by
  constructor
  · intro h
    simp only [ofKeys] at h
    split_ifs at h
    exact Except.ok.inj h ▸ rfl
  · rintro rfl
    rw [ofKeys, dif_neg set.ne_nil, dif_pos set.length_le]

theorem mapM_pieces_eq_ok {body : Bytes} {keys : List ExtendedKey} :
    (Bytes.pieces 77 body).mapM ExtendedKey.ofBytes = .ok keys ↔
      body = keys.flatMap fun key => key.bytes.toList := by
  rw [mapM_eq_ok, ← Bytes.pieces_eq_map ExtendedKey.length_bytes]
  exact forall₂_iff_eq_map (f := fun key : ExtendedKey => key.bytes.toList)
    fun _ _ => ExtendedKey.ofBytes_eq_ok

theorem ofBytes_eq_ok : ofBytes b = .ok set ↔ b = set.bytes := by
  cases b with
  | nil => exact ⟨nofun, nofun⟩
  | cons count body =>
    rw [bytes, List.cons.injEq]
    constructor
    · intro h
      simp only [ofBytes] at h
      split_ifs at h with hlength
      obtain ⟨keys, hkeys, hset⟩ := bind_eq_ok.1 h
      obtain rfl := ofKeys_eq_ok.1 hset
      obtain rfl := mapM_pieces_eq_ok.1 hkeys
      rw [Bytes.length_flatMap_of_length fun key => key.bytes.length_eq, not_not] at hlength
      have hcount : set.keys.length = count.toNat :=
        Nat.eq_of_mul_eq_mul_right (by decide) hlength
      exact ⟨by rw [size, hcount, UInt8.ofNat_toNat], rfl⟩
    · rintro ⟨rfl, rfl⟩
      have hlength := Bytes.length_flatMap_of_length
        (fun key : ExtendedKey => key.bytes.length_eq) set.keys
      rw [← toNat_count] at hlength
      simp only [ofBytes, hlength, ne_eq, not_true_eq_false, if_false]
      exact bind_eq_ok.2 ⟨set.keys, mapM_pieces_eq_ok.2 rfl, ofKeys_eq_ok.2 rfl⟩

/-- A count from one to 255, and as many blocks. -/
def IsStored (b : Bytes) : Prop :=
  ∃ (count : UInt8) (blocks : List Bytes), b = count :: blocks.flatten ∧ count ≠ 0 ∧
    blocks.length = count.toNat ∧ ∀ block ∈ blocks, ExtendedKey.IsBlock block

theorem isStored_iff : IsStored b ↔ ∃ set : KeySet, b = set.bytes := by
  constructor
  · rintro ⟨count, blocks, rfl, hzero, hlength, hblocks⟩
    obtain ⟨keys, rfl⟩ : ∃ keys : List ExtendedKey,
        keys.map (fun key => key.bytes.toList) = blocks := by
      rw [← Set.mem_range, Set.range_list_map]
      exact fun block hblock =>
        (ExtendedKey.isBlock_iff.1 (hblocks block hblock)).imp fun _ => Eq.symm
    rw [List.length_map] at hlength
    have hne : keys ≠ [] := by
      rintro rfl
      exact hzero (UInt8.toNat_inj.1 hlength.symm)
    have hcount : UInt8.ofNat keys.length = count := by rw [hlength, UInt8.ofNat_toNat]
    refine ⟨⟨keys, hne, hlength.trans_le (Nat.le_of_lt_succ count.toNat_lt)⟩, ?_⟩
    simp only [bytes, size, hcount, List.flatMap_def]
  · rintro ⟨set, rfl⟩
    have hlength := set.toNat_count
    refine ⟨_, set.keys.map fun key => key.bytes.toList, by rw [bytes, List.flatMap_def], ?_,
      by rw [List.length_map, hlength], List.forall_mem_map.2 fun key _ =>
        ExtendedKey.isBlock_iff.2 ⟨key, rfl⟩⟩
    intro hzero
    rw [hzero] at hlength
    exact set.ne_nil (List.length_eq_zero_iff.1 hlength.symm)

/-- A private key is never taken into a set, wherever it stands among the blocks. -/
theorem ofBytes_ne_ok_of_privateVersion {count : UInt8} {blocks : List Bytes}
    (hblocks : ∀ block ∈ blocks, block.length = ExtendedKey.size) {block : Bytes}
    (hblock : block ∈ blocks) {network : Network} (hversion : network.privateVersion <+: block) :
    ofBytes (count :: blocks.flatten) ≠ .ok set := by
  intro h
  have hbody := (List.cons.inj (ofBytes_eq_ok.1 h)).2
  have hmap := Bytes.pieces_eq_map ExtendedKey.length_bytes |>.2 hbody
  rw [Bytes.pieces_flatten hblocks] at hmap
  rw [hmap] at hblock
  obtain ⟨key, -, rfl⟩ := List.mem_map.1 hblock
  have hread := ExtendedKey.ofBytes_of_privateVersion key.bytes.length_eq hversion
  rw [ExtendedKey.ofBytes_eq_ok.2 rfl] at hread
  exact nomatch hread

end KeySet

end Attestor
