import Attestor.Address
import Attestor.Proofs.Curve
import Attestor.Proofs.Framing
import Attestor.Proofs.Reading

/-! The raw bytes of an address: a byte that tells the kind, then hashes of twenty bytes, in front
of which the required number and the count stand if there may be several. Bytes are read as an
address exactly when they are its bytes and its count fits, so reading and writing are inverse to
each other on all that is read. Keys make an address if they can all be counted and the required
number is one that they can meet. -/

namespace Attestor.Address

/-! ### The end of an address -/

/-- The first byte, which tells what follows. -/
def tag : Address → UInt8
  | keyHash _ => 0x20
  | scriptHash _ => 0x21
  | multiKey _ _ => 0x22

def body : Address → Bytes
  | keyHash hash | scriptHash hash => hash.toList
  | multiKey required hashes =>
    Bytes.littleEndian 2 required.toNat ++ Bytes.littleEndian 2 hashes.length ++
      hashes.flatMap Octets.toList

/-- The hashes that stand behind a count; none if the address consists of a single one. -/
def listed : Address → List (Octets 20)
  | keyHash _ | scriptHash _ => []
  | multiKey _ hashes => hashes

def IsMulti : Address → Prop
  | keyHash _ | scriptHash _ => False
  | multiKey _ _ => True

theorem bytes_eq (a : Address) : a.bytes = a.tag :: a.body := by
  cases a <;> rfl

theorem tag_mem (a : Address) : a.tag = 0x20 ∨ a.tag = 0x21 ∨ a.tag = 0x22 := by
  cases a <;> simp [tag]

theorem length_bytes_of_not_isMulti {a : Address} (h : ¬a.IsMulti) : a.bytes.length = 21 := by
  cases a with
  | keyHash hash | scriptHash hash => simp [bytes, hash.length_eq]
  | multiKey _ _ => exact absurd trivial h

/-- Twenty bytes for each hash, and one or five in front. -/
theorem length_bytes_mod (a : Address) : a.bytes.length % 20 = 1 ∨ a.bytes.length % 20 = 5 := by
  cases a with
  | keyHash hash | scriptHash hash => simp [bytes, hash.length_eq]
  | multiKey required hashes =>
    simp only [bytes, List.length_cons, List.length_append, Bytes.length_littleEndian,
      Bytes.length_flatMap_of_length Octets.length_eq]
    omega

/-- The count of the hashes is a number of 16 bits. -/
def Sized (a : Address) : Prop := a.listed.length ≤ 65535

instance (a : Address) : Decidable a.Sized := inferInstanceAs (Decidable (_ ≤ _))

theorem framed_bytes : Framed Sized bytes := by
  intro a b ha hb x y h
  simp only [bytes_eq, List.cons_append, List.cons.injEq] at h
  obtain ⟨htag, h⟩ := h
  cases a <;> cases b <;> simp [tag] at htag
  case keyHash.keyHash | scriptHash.scriptHash =>
    obtain ⟨rfl, hxy⟩ := Octets.framed_toList 20 trivial trivial h
    exact ⟨rfl, hxy⟩
  case multiKey.multiKey r l s m =>
    simp only [Sized, listed] at ha hb
    simp only [body, List.append_assoc] at h
    obtain ⟨hr, h⟩ := Bytes.framed_littleEndian 2 r.toNat_lt s.toNat_lt h
    obtain ⟨hlen, h⟩ := Bytes.framed_littleEndian 2 (by omega) (by omega) h
    obtain ⟨rfl, hxy⟩ := (Octets.framed_toList 20).flatMap hlen (by simp) (by simp) h
    cases UInt16.toNat_inj.1 hr
    exact ⟨rfl, hxy⟩

/-- Bytes with nothing behind them tell every address: where the count has left the 16 bits, the
length still tells it. -/
theorem bytes_injective : Function.Injective bytes := by
  intro a b h
  simp only [bytes_eq, List.cons.injEq] at h
  obtain ⟨htag, h⟩ := h
  cases a <;> cases b <;> simp [tag] at htag
  case keyHash.keyHash | scriptHash.scriptHash => exact congrArg _ (Octets.ext h)
  case multiKey.multiKey r l s m =>
    have hlen : l.length = m.length := by
      have hlength := congrArg List.length h
      simp only [body, List.length_append, Bytes.length_littleEndian,
        Bytes.length_flatMap_of_length Octets.length_eq] at hlength
      omega
    simp only [body, List.append_assoc, hlen] at h
    obtain ⟨hr, h⟩ := Bytes.framed_littleEndian 2 r.toNat_lt s.toNat_lt h
    have hflat := congrArg (· ++ []) (List.append_cancel_left h)
    obtain ⟨rfl, -⟩ := (Octets.framed_toList 20).flatMap hlen (by simp) (by simp) hflat
    exact congrArg (multiKey · l) (UInt16.toNat_inj.1 hr)

variable {a b : Address}

/-! ### Raw bytes -/

/-- A single hash is all that follows. -/
theorem single_eq_ok {f : Octets 20 → Address} {e : Key.Error} {body : Bytes} :
    (match Octets.ofList? 20 body with
      | some hash => Except.ok (f hash)
      | none => .error e) = .ok a ↔ ∃ hash : Octets 20, body = hash.toList ∧ a = f hash := by
  constructor
  · intro h
    split at h
    · rename_i hash hread
      exact ⟨hash, Octets.ofList?_eq_some.1 hread, (Except.ok.inj h).symm⟩
    · exact nomatch h
  · rintro ⟨hash, rfl, rfl⟩
    rw [Octets.ofList?_toList]

/-- What follows the counts are the hashes, as many as the second count says. -/
theorem ofBytes_multiKey_eq_ok {r₀ r₁ c₀ c₁ : UInt8} {rest : Bytes} :
    ofBytes (0x22 :: r₀ :: r₁ :: c₀ :: c₁ :: rest) = .ok a ↔
      ∃ hashes : List (Octets 20), hashes.length = Bytes.ofLittleEndian [c₀, c₁] ∧
        rest = hashes.flatMap Octets.toList ∧
        a = multiKey (.ofNat (Bytes.ofLittleEndian [r₀, r₁])) hashes := by
  have hlength : ∀ hashes : List (Octets 20), rest = hashes.flatMap Octets.toList →
      rest.length = hashes.length * 20 := by
    rintro hashes rfl
    exact Bytes.length_flatMap_of_length Octets.length_eq hashes
  simp only [ofBytes]
  rw [if_neg (by decide), if_neg (by decide), if_pos trivial]
  constructor
  · intro h
    split at h
    · cases h
    · rename_i hcount
      split at h
      · rename_i hashes hread
        have hrest := Octets.mapM_pieces_eq_some.1 hread
        refine ⟨hashes, ?_, hrest, (Except.ok.inj h).symm⟩
        have := hlength hashes hrest
        omega
      · cases h
  · rintro ⟨hashes, hcount, hrest, rfl⟩
    have hfits : ¬rest.length ≠ Bytes.ofLittleEndian [c₀, c₁] * 20 := by
      rw [hlength hashes hrest, hcount, not_not]
    rw [if_neg hfits, Octets.mapM_pieces_eq_some.2 hrest]

theorem ofBytes_bytes (ha : a.Sized) : ofBytes a.bytes = .ok a := by
  cases a with
  | keyHash hash => simp [ofBytes, bytes]
  | scriptHash hash => simp [ofBytes, bytes]
  | multiKey required hashes =>
    have hcount : Bytes.ofLittleEndian (Bytes.littleEndian 2 hashes.length) = hashes.length := by
      rw [Bytes.ofLittleEndian_littleEndian]
      exact Nat.mod_eq_of_lt (Nat.lt_succ_of_le ha)
    have hrequired : UInt16.ofNat (Bytes.ofLittleEndian (Bytes.littleEndian 2 required.toNat)) =
        required := by
      rw [Bytes.ofLittleEndian_littleEndian, Nat.mod_eq_of_lt
        (show _ < 256 ^ 2 from required.toNat_lt), UInt16.ofNat_toNat]
    exact ofBytes_multiKey_eq_ok.2
      ⟨hashes, hcount.symm, rfl, congrArg (multiKey · hashes) hrequired.symm⟩

theorem sized_and_eq_bytes_of_ofBytes {b : Bytes} (h : ofBytes b = .ok a) :
    a.Sized ∧ b = a.bytes := by
  cases b with
  | nil => exact nomatch h
  | cons tag body =>
    by_cases hmulti : tag = 0x22
    · obtain rfl := hmulti
      match body with
      | [] | [_] | [_, _] | [_, _, _] => exact nomatch h
      | r₀ :: r₁ :: c₀ :: c₁ :: rest =>
        obtain ⟨hashes, hcount, rfl, rfl⟩ := ofBytes_multiKey_eq_ok.1 h
        have hpair : ∀ x y : UInt8, Bytes.ofLittleEndian [x, y] < 65536 :=
          fun x y => by simpa using Bytes.ofLittleEndian_lt [x, y]
        have hback : ∀ x y : UInt8, Bytes.littleEndian 2 (Bytes.ofLittleEndian [x, y]) = [x, y] :=
          fun x y => Bytes.littleEndian_ofLittleEndian [x, y]
        have hrequired : Bytes.ofLittleEndian [r₀, r₁] < UInt16.size := hpair r₀ r₁
        have hsized : hashes.length ≤ 65535 := hcount ▸ Nat.le_of_lt_succ (hpair c₀ c₁)
        refine ⟨hsized, ?_⟩
        rw [bytes, hcount, UInt16.toNat_ofNat_of_lt' hrequired, hback, hback]
        rfl
    · simp only [ofBytes] at h
      split_ifs at h with hkey hscript
      · obtain ⟨hash, rfl, rfl⟩ := single_eq_ok.1 h
        exact ⟨Nat.zero_le _, hkey ▸ rfl⟩
      · obtain ⟨hash, rfl, rfl⟩ := single_eq_ok.1 h
        exact ⟨Nat.zero_le _, hscript ▸ rfl⟩

theorem ofBytes_eq_ok {b : Bytes} : ofBytes b = .ok a ↔ a.Sized ∧ b = a.bytes :=
  ⟨sized_and_eq_bytes_of_ofBytes, fun ⟨ha, hb⟩ => hb ▸ ofBytes_bytes ha⟩

/-- Bytes that fit into those of an address with a count that fits list no more hashes. -/
theorem Sized.of_isPrefix (hb : b.Sized) (h : a.bytes <+: b.bytes) : a.Sized := by
  have hlength := h.length_le
  cases a with
  | keyHash hash | scriptHash hash => exact Nat.zero_le _
  | multiKey required hashes =>
    cases b with
    | keyHash hash | scriptHash hash =>
      simp only [bytes, List.length_cons, List.length_append, Bytes.length_littleEndian,
        Bytes.length_flatMap_of_length Octets.length_eq, hash.length_eq] at hlength
      simp only [Sized, listed]
      omega
    | multiKey required' hashes' =>
      simp only [bytes, List.length_cons, List.length_append, Bytes.length_littleEndian,
        Bytes.length_flatMap_of_length Octets.length_eq] at hlength
      simp only [Sized, listed] at hb ⊢
      omega

theorem eq_of_bytes_isPrefix (hb : b.Sized) (h : a.bytes <+: b.bytes) : a = b := by
  obtain ⟨rest, hrest⟩ := h
  exact (framed_bytes (hb.of_isPrefix ⟨rest, hrest⟩) hb (hrest.trans (List.append_nil _).symm)).1

/-! ### Addresses of keys -/

variable {keys : List PublicKey} {required : UInt32}

theorem ofKeys_singleton_eq_ok {key : PublicKey} :
    ofKeys [key] required = .ok a ↔ required.toNat = 1 ∧ a = ofKey key := by
  rw [show required.toNat = 1 ↔ required = 1 from UInt32.toNat_inj (b := 1)]
  simp only [ofKeys]
  split_ifs with hone
  · simp [hone, eq_comm]
  · simp [hone]

theorem ofKeys_eq_ok_of_length_ne_one (hlength : keys.length ≠ 1) :
    ofKeys keys required = .ok a ↔
      (1 ≤ required.toNat ∧ required.toNat ≤ keys.length ∧ keys.length ≤ 65535) ∧
        a = multiKey required.toUInt16 (keys.map PublicKey.hash) := by
  have hzero : required = 0 ↔ required.toNat = 0 := (UInt32.toNat_inj (b := 0)).symm
  match keys with
  | [] => simp [ofKeys]; omega
  | [key] => exact absurd rfl hlength
  | first :: second :: rest =>
    simp only [ofKeys]
    split_ifs with hnumber hmany
    · rw [hzero] at hnumber
      exact ⟨False.elim, fun ⟨hrange, _⟩ => by omega⟩
    · exact ⟨False.elim, fun ⟨hrange, _⟩ => by omega⟩
    · rw [hzero] at hnumber
      rw [Except.ok.injEq, eq_comm, iff_and_self]
      exact fun _ => ⟨by omega, by omega, by omega⟩

/-- Keys have an address exactly when all of them can be counted and they can meet the required
number. -/
theorem exists_ofKeys_iff : (∃ a, ofKeys keys required = .ok a) ↔
    1 ≤ required.toNat ∧ required.toNat ≤ keys.length ∧ keys.length ≤ 65535 := by
  by_cases hlength : keys.length = 1
  · obtain ⟨key, rfl⟩ := List.length_eq_one_iff.1 hlength
    simp only [ofKeys_singleton_eq_ok, exists_and_left, exists_eq, and_true, hlength]
    omega
  · simp only [ofKeys_eq_ok_of_length_ne_one hlength, exists_and_left, exists_eq, and_true]

/-- Bytes are read as an address exactly when its count fits and they are its bytes, and no bytes
of an address continue those of another. Keys make an address exactly when there are at most 65535
and the required number lies between one and theirs. It is the hash of a single key, and of any
other keys its bytes are read as the required number and the hashes of the keys in their order. -/
theorem raw_bytes_and_keys_told :
    (∀ b a, ofBytes b = .ok a ↔ a.Sized ∧ b = a.bytes) ∧
    (∀ a b : Address, b.Sized → a.bytes <+: b.bytes → a = b) ∧
    ∀ (keys : List PublicKey) (required : UInt32),
      ((∃ a, ofKeys keys required = .ok a) ↔
        1 ≤ required.toNat ∧ required.toNat ≤ keys.length ∧ keys.length ≤ 65535) ∧
      ∀ a, ofKeys keys required = .ok a →
        (∀ key, keys = [key] → a = keyHash (PublicKey.hash key)) ∧
        (keys.length ≠ 1 → ∃ number : UInt16, number.toNat = required.toNat ∧
          ofBytes a.bytes = .ok (multiKey number (keys.map PublicKey.hash))) := by
  refine ⟨fun _ _ => ofBytes_eq_ok, fun _ _ => eq_of_bytes_isPrefix,
    fun keys required => ⟨exists_ofKeys_iff, fun a ha => ⟨?_, fun hlength => ?_⟩⟩⟩
  · rintro key rfl
    exact (ofKeys_singleton_eq_ok.1 ha).2
  · obtain ⟨⟨-, hle, hmany⟩, rfl⟩ := (ofKeys_eq_ok_of_length_ne_one hlength).1 ha
    have hsized : (multiKey required.toUInt16 (keys.map PublicKey.hash)).Sized :=
      (List.length_map PublicKey.hash).trans_le hmany
    refine ⟨required.toUInt16, ?_, ofBytes_bytes hsized⟩
    rw [UInt32.toNat_toUInt16]
    exact Nat.mod_eq_of_lt (by omega)

/-- One key alone, and both signatures of two keys that happen to be the same. -/
theorem raw_bytes_and_keys_generator :
    ofKeys [.generator] 1 = .ok (keyHash (PublicKey.hash .generator)) ∧
    ∃ a number, ofKeys [.generator, .generator] 2 = .ok a ∧ number.toNat = 2 ∧ a.Sized ∧
      ofBytes a.bytes =
        .ok (multiKey number [PublicKey.hash .generator, PublicKey.hash .generator]) ∧
      ∀ b : Address, b.bytes <+: a.bytes → b = a := by
  obtain ⟨hread, hprefix, hkeys⟩ := raw_bytes_and_keys_told
  obtain ⟨a, ha⟩ := (hkeys [.generator] 1).1.2 (by decide)
  obtain ⟨b, hb⟩ := (hkeys [.generator, .generator] 2).1.2 (by decide)
  obtain ⟨number, hnumber, hbytes⟩ := ((hkeys _ _).2 b hb).2 (by decide)
  obtain ⟨hsized, hsame⟩ := (hread _ _).1 hbytes
  obtain rfl := bytes_injective hsame
  refine ⟨?_, _, number, hb, hnumber, hsized, hbytes, fun b hb => hprefix b _ hsized hb⟩
  rw [ha, ((hkeys _ _).2 a ha).1 _ rfl]

end Attestor.Address
