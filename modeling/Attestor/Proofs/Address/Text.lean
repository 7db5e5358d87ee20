import Attestor.Address
import Attestor.Proofs.Address.Bytes
import Attestor.Proofs.Text.Digits

/-! The texts of addresses and of instruments are read back, with any blanks around them. A text
that passes the base-58 checksum is never read as hexadecimal digits, so those must not pass it:
they hold a zero, which is no letter of base 58, as long as the count of the hashes has one among
its four digits. The least count without a zero is 0x1111. -/

namespace Attestor

theorem Network.scriptHashVersion_ne_keyHashVersion (n m : Network) :
    n.scriptHashVersion ≠ m.keyHashVersion := by
  cases n <;> cases m <;> decide

theorem Network.version_ne {n m : Network} (hne : n ≠ m) :
    n.keyHashVersion ≠ m.keyHashVersion ∧ n.scriptHashVersion ≠ m.scriptHashVersion := by
  cases n with
  | mainnet =>
    cases m with
    | mainnet => exact absurd rfl hne
    | testnet => decide
  | testnet =>
    cases m with
    | mainnet => decide
    | testnet => exact absurd rfl hne

namespace Address

variable {network : Network} {s : String}

/-- What is read from a single hash after a version byte. -/
theorem parse_of_version {version : UInt8} {hash : Octets 20}
    (hs : Text.Padded (Text.Base58.encode (version :: hash.toList)) s) :
    parse network s =
      if version = network.keyHashVersion then .ok (keyHash hash)
      else if version = network.scriptHashVersion then .ok (scriptHash hash)
      else .error (.unknownAddressType version) := by
  have htrim := (Text.trim_eq_iff_padded (Text.trim_of_solid (Text.Base58.solid_encode _))).2 hs
  simp only [parse, htrim, Text.Base58.decode_encode, Octets.ofList?_toList]

theorem exists_mem_zero_of_lt {n : ℕ} (hn : n < 4369) :
    ∃ x ∈ Bytes.littleEndian 2 n, x.toNat < 16 ∨ x.toNat % 16 = 0 := by
  have hlow : (UInt8.ofNat n).toNat = n % 256 := UInt8.toNat_ofNat'
  have hhigh : (UInt8.ofNat (n / 256)).toNat = n / 256 % 256 := UInt8.toNat_ofNat'
  simp only [Bytes.littleEndian, List.mem_cons, List.not_mem_nil, or_false, exists_eq_or_imp,
    exists_eq_left, hlow, hhigh]
  omega

theorem decode_multiKey {required : UInt16} {hashes : List (Octets 20)}
    (hcount : hashes.length < 4369) :
    Text.Base58.decode (Text.Hex.encode (multiKey required hashes).bytes) =
      .error .invalidCharacter := by
  obtain ⟨x, hx, hzero⟩ := exists_mem_zero_of_lt hcount
  have hmem : x ∈ (multiKey required hashes).bytes := by
    simp only [bytes, List.mem_cons, List.mem_append]
    exact .inr (.inl (.inr hx))
  exact Text.Base58.decode_of_not_mem (Text.Hex.zero_mem_encode hmem hzero) (by decide)

theorem parse_of_padded {a : Address} (hcount : a.listed.length < 4369)
    (hs : Text.Padded (a.text network) s) : parse network s = .ok a := by
  cases a with
  | keyHash hash => rw [parse_of_version hs, if_pos rfl]
  | scriptHash hash =>
    rw [parse_of_version hs, if_neg (network.scriptHashVersion_ne_keyHashVersion _), if_pos rfl]
  | multiKey required hashes =>
    have htrim : Text.trim s = Text.Hex.encode (multiKey required hashes).bytes :=
      (Text.trim_eq_iff_padded (Text.trim_of_solid (Text.Hex.solid_encode _))).2 hs
    have hcount : hashes.length < 4369 := hcount
    have hsized : (multiKey required hashes).Sized := show hashes.length ≤ 65535 by omega
    simp only [parse, htrim, decode_multiKey hcount, Text.Hex.decode_encode]
    exact ofBytes_bytes hsized

end Address

namespace Instrument

variable {i : Instrument} {s : String}

/-- The kind is written with three ASCII capitals. -/
def IsNamed (i : Instrument) : Prop :=
  ∃ a b c : Char, i.kind = String.ofList [a, b, c] ∧
    isCapital a ∧ isCapital b ∧ isCapital c

theorem toList_text {a b c : Char} (hkind : i.kind = String.ofList [a, b, c]) :
    i.text.toList = a :: b :: c :: (Text.Base58.encode i.code.toList).toList := by
  rw [text, hkind, String.toList_append, String.toList_ofList]
  rfl

theorem isBlank_of_isCapital {c : Char} (hc : isCapital c) : Text.isBlank c = false := by
  simp only [isCapital, Bool.and_eq_true, decide_eq_true_eq] at hc
  have hlow : 65 ≤ c.toNat := UInt32.le_iff_toNat_le.1 hc.1
  have hhigh : c.toNat ≤ 90 := UInt32.le_iff_toNat_le.1 hc.2
  simp only [Text.isBlank, Bool.or_eq_false_iff, Bool.and_eq_false_iff, decide_eq_false_iff_not,
    beq_eq_false_iff_ne]
  omega

theorem IsNamed.solid_text (hi : i.IsNamed) : Text.Solid i.text := by
  obtain ⟨a, b, c, hkind, ha, hb, hc⟩ := hi
  rw [Text.Solid, toList_text hkind]
  simp only [List.forall_mem_cons]
  exact ⟨isBlank_of_isCapital ha, isBlank_of_isCapital hb, isBlank_of_isCapital hc,
    Text.Base58.solid_encode _⟩

theorem parse_eq_ok : parse s = .ok i ↔ i.IsNamed ∧ Text.trim s = i.text := by
  constructor
  · intro h
    simp only [parse] at h
    split at h
    · rename_i a b c rest hlist
      split_ifs at h with hcapitals
      simp only [Bool.and_eq_true] at hcapitals
      split at h
      · rename_i payload hpayload
        split at h
        · rename_i code hcode
          obtain rfl := Except.ok.inj h
          refine ⟨⟨a, b, c, rfl, hcapitals.1.1, hcapitals.1.2, hcapitals.2⟩, ?_⟩
          rw [← String.toList_inj, toList_text rfl, hlist, ← Octets.ofList?_eq_some.1 hcode,
            ← Text.Base58.decode_eq_ok.1 hpayload, String.toList_ofList]
        · exact nomatch h
      · exact nomatch h
    · exact nomatch h
  · rintro ⟨⟨a, b, c, hkind, ha, hb, hc⟩, htrim⟩
    have hlist : (Text.trim s).toList = a :: b :: c :: _ := htrim ▸ toList_text hkind
    simp only [parse, hlist, ha, hb, hc, Bool.and_self, if_true, String.ofList_toList,
      Text.Base58.decode_encode, Octets.ofList?_toList, ← hkind]

end Instrument

/-- The text of an address is read back on its network, unless it lists 4369 hashes or more, and
that of a single hash is refused on the other network for its version. A text is read as an
instrument exactly when it is, without its outer blanks, the text of that instrument, and each
instrument that is named by three capitals is read back from its text. -/
theorem texts_of_addresses_and_instruments :
    (∀ (network : Network) (a : Address) (s : String), a.listed.length < 4369 →
      Text.Padded (a.text network) s → Address.parse network s = .ok a) ∧
    (∀ (network other : Network) (hash : Octets 20) (s : String), network ≠ other →
      (Text.Padded ((Address.keyHash hash).text network) s →
        Address.parse other s = .error (.unknownAddressType network.keyHashVersion)) ∧
      (Text.Padded ((Address.scriptHash hash).text network) s →
        Address.parse other s = .error (.unknownAddressType network.scriptHashVersion))) ∧
    (∀ (i : Instrument) (s : String),
      Instrument.parse s = .ok i ↔ i.IsNamed ∧ Text.trim s = i.text) ∧
    ∀ i : Instrument, i.IsNamed → Instrument.parse i.text = .ok i := by
  refine ⟨fun _ _ _ => Address.parse_of_padded, fun network other hash s hne => ?_,
    fun _ _ => Instrument.parse_eq_ok, fun i hi => ?_⟩
  · obtain ⟨hkey, hscript⟩ := Network.version_ne hne
    refine ⟨fun hs => ?_, fun hs => ?_⟩
    · rw [Address.parse_of_version hs, if_neg hkey,
        if_neg (other.scriptHashVersion_ne_keyHashVersion network).symm]
    · rw [Address.parse_of_version hs,
        if_neg (network.scriptHashVersion_ne_keyHashVersion other), if_neg hscript]
  · exact Instrument.parse_eq_ok.2 ⟨hi, Text.trim_of_solid hi.solid_text⟩

/-- Two keys that happen to be the same, on the test network and with blanks around the text; the
script that one of them would be, brought to the main network; and a share with a code of zeros. -/
theorem texts_of_generator :
    (∃ a : Address, a.listed = [PublicKey.hash .generator, PublicKey.hash .generator] ∧
      Address.parse .testnet (" \t" ++ a.text .testnet ++ "\n") = .ok a) ∧
    Address.parse .mainnet ((Address.scriptHash (PublicKey.hash .generator)).text .testnet) =
      .error (.unknownAddressType 0xc4) ∧
    Instrument.parse (Instrument.text ⟨"SHC", .replicate 20 0⟩) = .ok ⟨"SHC", .replicate 20 0⟩ := by
  obtain ⟨hread, hother, -, hnamed⟩ := texts_of_addresses_and_instruments
  have hpadded : ∀ core, Text.Padded core (" \t" ++ core ++ "\n") :=
    fun core => ⟨[' ', '\t'], ['\n'], by simp [Text.isBlank], by simp [Text.isBlank], rfl⟩
  refine ⟨⟨.multiKey 2 [PublicKey.hash .generator, PublicKey.hash .generator], rfl,
    hread _ _ _ (by decide) (hpadded _)⟩, ?_, ?_⟩
  · exact (hother .testnet .mainnet _ _ (by decide)).2 (Text.Padded.refl _)
  · exact hnamed _ ⟨'S', 'H', 'C', rfl, by decide, by decide, by decide⟩

end Attestor
