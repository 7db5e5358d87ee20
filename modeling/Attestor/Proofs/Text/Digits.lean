import Attestor.Chain.Header
import Attestor.Proofs.Reading
import Attestor.Proofs.Text.Basic
import Attestor.Text.Digits
import Mathlib

/-! Digits are read back as what they were written for. The digits of a number have no leading
zero, so rewriting a digit string in another base and back gives the same string; with it base-58
text tells its payload. There are neither blanks nor commas among the digits. -/

namespace Attestor.Text.Radix

/-! ### Two bases -/

variable {base v : ℕ} {ds : List ℕ}

theorem value_eq_ofDigits (base : ℕ) (ds : List ℕ) :
    value base ds = Nat.ofDigits base ds.reverse := by
  induction ds using List.reverseRecOn with
  | nil => rfl
  | append_singleton ds d ih =>
    rw [value] at ih ⊢
    rw [List.foldl_append, List.foldl_cons, List.foldl_nil, ih, List.reverse_concat,
      Nat.ofDigits_cons]
    ring

theorem digitsOnto_eq (hbase : 1 < base) (v : ℕ) (acc : List ℕ) :
    digitsOnto base v acc = (Nat.digits base v).reverse ++ acc := by
  induction v using Nat.strong_induction_on generalizing acc with
  | _ v ih =>
    rw [digitsOnto]
    by_cases hv : v = 0
    · rw [dif_pos (.inl hv), hv, Nat.digits_zero]
      rfl
    · rw [dif_neg (by omega), ih _ (Nat.div_lt_self (Nat.pos_of_ne_zero hv) hbase),
        Nat.digits_eq_cons_digits_div hbase hv, List.reverse_cons, List.append_assoc]
      rfl

theorem digits_eq (hbase : 1 < base) (v : ℕ) : digits base v = (Nat.digits base v).reverse := by
  rw [digits, digitsOnto_eq hbase, List.append_nil]

theorem lt_of_mem_digits (hbase : 1 < base) {d : ℕ} (hd : d ∈ digits base v) : d < base := by
  rw [digits_eq hbase, List.mem_reverse] at hd
  exact Nat.digits_lt_base hbase hd

theorem value_digits (hbase : 1 < base) (v : ℕ) : value base (digits base v) = v := by
  rw [value_eq_ofDigits, digits_eq hbase, List.reverse_reverse, Nat.ofDigits_digits]

theorem head_digits_ne_zero (hbase : 1 < base) (hne : digits base v ≠ []) :
    (digits base v).head hne ≠ 0 := by
  have hv : v ≠ 0 := by
    rintro rfl
    rw [digits_eq hbase, Nat.digits_zero] at hne
    exact hne rfl
  simp only [digits_eq hbase, List.head_reverse]
  exact Nat.getLast_digit_ne_zero base hv

theorem takeWhile_digits (hbase : 1 < base) (v : ℕ) : (digits base v).takeWhile (· = 0) = [] := by
  have hhead := head_digits_ne_zero (v := v) hbase
  cases h : digits base v with
  | nil => rfl
  | cons d ds =>
    simp only [h, List.head_cons] at hhead
    exact List.takeWhile_cons_of_neg (by simpa using hhead)

/-- Leading zeros add nothing to the value. -/
theorem value_append_of_zeros {zeros : List ℕ} (hzeros : ∀ d ∈ zeros, d = 0) (ds : List ℕ) :
    value base (zeros ++ ds) = value base ds := by
  induction zeros with
  | nil => rfl
  | cons d zeros ih =>
    obtain ⟨hd, hrest⟩ := List.forall_mem_cons.1 hzeros
    rw [← ih hrest, value, List.cons_append, List.foldl_cons, hd, Nat.zero_mul]
    rfl

theorem zero_of_mem_takeWhile {d : ℕ} (hd : d ∈ ds.takeWhile (· = 0)) : d = 0 :=
  of_decide_eq_true (List.mem_takeWhile_imp (p := fun d => decide (d = 0)) hd)

theorem digits_value (hbase : 1 < base) (hds : ∀ d ∈ ds, d < base) :
    digits base (value base ds) = ds.dropWhile (· = 0) := by
  have hvalue : value base ds = value base (ds.dropWhile (· = 0)) := by
    conv_lhs => rw [← List.takeWhile_append_dropWhile (p := (· = 0)) (l := ds)]
    exact value_append_of_zeros (fun _ hd => zero_of_mem_takeWhile hd) _
  rw [hvalue, value_eq_ofDigits, digits_eq hbase, Nat.digits_ofDigits base hbase,
    List.reverse_reverse]
  · intro d hd
    exact hds d ((List.dropWhile_sublist _).subset (List.mem_reverse.1 hd))
  · intro hne
    rw [List.getLast_reverse]
    simpa using List.head_dropWhile_not (fun d : ℕ => decide (d = 0)) (by simpa using hne)

theorem rebase_nil (src dst : ℕ) : rebase src dst [] = [] := by
  rw [rebase, value, List.foldl_nil, digits, digitsOnto, dif_pos (.inl rfl)]
  rfl

theorem lt_of_mem_rebase {src dst d : ℕ} (hdst : 1 < dst) (hd : d ∈ rebase src dst ds) :
    d < dst := by
  rcases List.mem_append.1 hd with hzero | hd
  · rw [zero_of_mem_takeWhile hzero]
    omega
  · exact lt_of_mem_digits hdst hd

theorem rebase_rebase {src dst : ℕ} (hsrc : 1 < src) (hdst : 1 < dst)
    (hds : ∀ d ∈ ds, d < src) : rebase dst src (rebase src dst ds) = ds := by
  have hzeros : ∀ d ∈ ds.takeWhile (· = 0), d = 0 := fun _ hd => zero_of_mem_takeWhile hd
  have htake : (rebase src dst ds).takeWhile (· = 0) = ds.takeWhile (· = 0) := by
    rw [rebase, List.takeWhile_append_of_pos fun d hd => decide_eq_true (hzeros d hd),
      takeWhile_digits hdst, List.append_nil]
  have hvalue : value dst (rebase src dst ds) = value src ds := by
    rw [rebase, value_append_of_zeros hzeros, value_digits hdst]
  rw [rebase, htake, hvalue, digits_value hsrc hds, List.takeWhile_append_dropWhile]

end Attestor.Text.Radix

/-! ### Hexadecimal -/

namespace Attestor

namespace Text.Hex

/-- A digit has its value, and is one byte of a text. -/
theorem digit_of_lt {v : UInt8} (hv : v < 16) :
    value? (digit v) = some v ∧ (digit v).toNat < 0x80 := by
  have hall : ∀ n < 16, value? (digit (UInt8.ofNat n)) = some (UInt8.ofNat n) ∧
      (digit (UInt8.ofNat n)).toNat < 0x80 := by decide
  have h := hall v.toNat (UInt8.lt_iff_toNat_lt.1 hv)
  rwa [UInt8.ofNat_toNat] at h

/-- A byte is told by its high half and its low one. -/
theorem halves (x : UInt8) : x / 16 < 16 ∧ x % 16 < 16 ∧ x / 16 * 16 + x % 16 = x := by
  have hx := x.toNat_lt
  refine ⟨?_, ?_, ?_⟩
  · rw [UInt8.lt_iff_toNat_lt, UInt8.toNat_div]
    exact Nat.div_lt_of_lt_mul hx
  · rw [UInt8.lt_iff_toNat_lt, UInt8.toNat_mod]
    exact Nat.mod_lt _ (by decide)
  · apply UInt8.toNat_inj.1
    rw [UInt8.toNat_add, UInt8.toNat_mul, UInt8.toNat_div, UInt8.toNat_mod]
    change (x.toNat / 16 * 16 % 256 + x.toNat % 16) % 256 = x.toNat
    omega

theorem digits_cons (x : UInt8) (b : Bytes) :
    digits (x :: b) = digit (x / 16) :: digit (x % 16) :: digits b := rfl

theorem decodeFrom_digits (position : ℕ) (acc b : Bytes) :
    decodeFrom position acc (digits b) = .ok (acc.reverse ++ b) := by
  induction b generalizing position acc with
  | nil =>
    rw [List.append_nil]
    rfl
  | cons x b ih =>
    obtain ⟨hhigh, hlow, hx⟩ := halves x
    rw [digits_cons, decodeFrom, (digit_of_lt hhigh).1, (digit_of_lt hlow).1]
    simp only [hx, ih, List.reverse_cons, List.append_assoc, List.singleton_append]

theorem length_digits (b : Bytes) : (digits b).length = 2 * b.length := by
  induction b with
  | nil => rfl
  | cons x b ih =>
    rw [digits_cons, List.length_cons, List.length_cons, ih, List.length_cons]
    rfl

theorem utf8_encode (b : Bytes) : utf8 (encode b) = digits b := by
  have hascii : ∀ x ∈ digits b, String.utf8EncodeChar (Char.ofNat x.toNat) = [x] := by
    intro x hx
    obtain ⟨y, -, hy⟩ := List.mem_flatMap.1 hx
    obtain ⟨hhigh, hlow, -⟩ := halves y
    have hlt : x.toNat < 0x80 := by
      rcases List.mem_pair.1 hy with rfl | rfl
      · exact (digit_of_lt hhigh).2
      · exact (digit_of_lt hlow).2
    have hchar : (Char.ofNat x.toNat).toNat = x.toNat := by
      rw [Char.toNat_ofNat, if_pos (.inl (by omega))]
    rw [utf8EncodeChar_of_ascii (hchar.trans_lt hlt), hchar, UInt8.ofNat_toNat]
  rw [encode, utf8_eq_flatMap, String.toList_ofList, List.flatMap_map, List.flatMap_congr hascii,
    List.flatMap_singleton']

theorem decode_encode (b : Bytes) : decode (encode b) = .ok b := by
  have heven : (digits b).length % 2 ≠ 1 := by
    rw [length_digits]
    omega
  rw [decode, utf8_encode, decodeDigits, if_neg heven, decodeFrom_digits]
  rfl

theorem mem_encode {b : Bytes} {c : Char} : c ∈ (encode b).toList ↔
    ∃ x ∈ b, c = Char.ofNat (digit (x / 16)).toNat ∨ c = Char.ofNat (digit (x % 16)).toNat := by
  rw [encode, String.toList_ofList, digits, List.map_flatMap, List.mem_flatMap]
  simp only [List.map_cons, List.map_nil, List.mem_pair]

theorem solid_encode (b : Bytes) : Solid (encode b) := by
  have hall : ∀ n < 16, isBlank (Char.ofNat (digit (UInt8.ofNat n)).toNat) = false := by
    decide +kernel
  have hdigit : ∀ v < 16, isBlank (Char.ofNat (digit v).toNat) = false := fun v hv => by
    have h := hall v.toNat (UInt8.lt_iff_toNat_lt.1 hv)
    rwa [UInt8.ofNat_toNat] at h
  intro c hc
  obtain ⟨x, -, rfl | rfl⟩ := mem_encode.1 hc
  · exact hdigit _ (halves x).1
  · exact hdigit _ (halves x).2.1

/-- A byte below 16 or divisible by it is written with a zero. -/
theorem zero_mem_encode {b : Bytes} {x : UInt8} (hx : x ∈ b)
    (hzero : x.toNat < 16 ∨ x.toNat % 16 = 0) : '0' ∈ (encode b).toList := by
  refine mem_encode.2 ⟨x, hx, ?_⟩
  rcases hzero with hhigh | hlow
  · have hzero : x / 16 = 0 := by
      apply UInt8.toNat_inj.1
      rw [UInt8.toNat_div]
      exact Nat.div_eq_of_lt hhigh
    rw [hzero]
    exact .inl rfl
  · have hzero : x % 16 = 0 := by
      apply UInt8.toNat_inj.1
      rw [UInt8.toNat_mod]
      exact hlow
    rw [hzero]
    exact .inr rfl

end Text.Hex

theorem Digest.parse_text (d : Digest) : parse (text d) = .ok d := by
  rw [parse, text, Text.Hex.decode_encode]
  simp only [List.reverse_reverse, ofBytes, Octets.ofList?_toList]

end Attestor

/-! ### Base 58

A letter is told by its digit, and a digit string by its digits in the other base. -/

namespace Attestor.Text.Base58

theorem digit?_letter {d : ℕ} (hd : d < 58) : digit? (letter d) = some d := by
  have hall : ∀ d < 58, digit? (letter d) = some d := by decide
  exact hall d hd

theorem digit?_eq_some {c : Char} {d : ℕ} : digit? c = some d ↔ d < 58 ∧ c = letter d := by
  constructor
  · intro h
    obtain ⟨hd, hc, -⟩ := List.idxOf?_eq_some_iff.1 h
    refine ⟨hd, ?_⟩
    rw [letter, List.getD_eq_getElem _ _ hd, hc]
  · rintro ⟨hd, rfl⟩
    exact digit?_letter hd

theorem letter_mem_alphabet {d : ℕ} (hd : d < 58) : letter d ∈ alphabet := by
  have hlength : d < alphabet.length := hd
  rw [letter, List.getD_eq_getElem _ _ hlength]
  exact List.getElem_mem hlength

/-- The digits of a text, if all of its characters are letters of the alphabet. -/
theorem mapM_digit?_eq_some {s : List Char} {ds : List ℕ} :
    s.mapM digit? = some ds ↔ (∀ d ∈ ds, d < 58) ∧ s = ds.map letter := by
  rw [mapM_eq_some]
  constructor
  · intro h
    induction h with
    | nil => exact ⟨by simp, rfl⟩
    | cons hc _ ih =>
      obtain ⟨hd, rfl⟩ := digit?_eq_some.1 hc
      exact ⟨List.forall_mem_cons.2 ⟨hd, ih.1⟩, by rw [ih.2, List.map_cons]⟩
  · rintro ⟨hds, rfl⟩
    rw [List.forall₂_map_left_iff, List.forall₂_same]
    exact fun d hd => digit?_letter (hds d hd)

theorem map_ofNat_map_toNat (b : Bytes) : (b.map UInt8.toNat).map UInt8.ofNat = b := by
  rw [List.map_map, show UInt8.ofNat ∘ UInt8.toNat = id from funext fun _ => UInt8.ofNat_toNat,
    List.map_id]

theorem map_toNat_map_ofNat {l : List ℕ} (hl : ∀ n ∈ l, n < 256) :
    (l.map UInt8.ofNat).map UInt8.toNat = l := by
  have hid : ∀ n ∈ l, (UInt8.toNat ∘ UInt8.ofNat) n = id n :=
    fun n hn => UInt8.toNat_ofNat_of_lt' (hl n hn)
  rw [List.map_map, List.map_congr_left hid, List.map_id]

theorem decodeRaw?_eq_some {s : String} {b : Bytes} : decodeRaw? s = some b ↔ s = encodeRaw b := by
  rw [decodeRaw?, Option.map_eq_some_iff]
  constructor
  · rintro ⟨ds, hds, rfl⟩
    obtain ⟨hlt, hs⟩ := mapM_digit?_eq_some.1 hds
    rw [encodeRaw, map_toNat_map_ofNat fun n hn => Radix.lt_of_mem_rebase (by decide) hn,
      Radix.rebase_rebase (by decide) (by decide) hlt, ← hs, String.ofList_toList]
  · rintro rfl
    have hbytes : ∀ d ∈ b.map UInt8.toNat, d < 256 :=
      List.forall_mem_map.2 fun x _ => x.toNat_lt
    refine ⟨_, mapM_digit?_eq_some.2 ⟨fun d hd => ?_, String.toList_ofList⟩, ?_⟩
    · exact Radix.lt_of_mem_rebase (by decide) hd
    · rw [Radix.rebase_rebase (by decide) (by decide) hbytes, map_ofNat_map_toNat]

theorem length_checksum (payload : Bytes) : (checksum payload).length = 4 := by
  rw [checksum, List.length_take, Octets.length_eq]
  rfl

theorem decode_eq_ok {s : String} {payload : Bytes} :
    decode s = .ok payload ↔ s = encode payload := by
  rw [decode, encode, ← decodeRaw?_eq_some]
  cases decodeRaw? s with
  | none => simp
  | some b =>
    simp only [Option.some.injEq]
    constructor
    · intro h
      split_ifs at h with hshort hsum
      obtain rfl := Except.ok.inj h
      rw [← hsum, List.take_append_drop]
    · rintro rfl
      have hlength : (payload ++ checksum payload).length - 4 = payload.length := by
        rw [List.length_append, length_checksum, Nat.add_sub_cancel]
      rw [if_neg (by rw [List.length_append, length_checksum]; omega), hlength,
        List.take_left' rfl, List.drop_left' rfl, if_pos rfl]

theorem decode_encode (payload : Bytes) : decode (encode payload) = .ok payload :=
  decode_eq_ok.2 rfl

theorem encode_ne_empty (payload : Bytes) : encode payload ≠ "" := by
  intro h
  have hnil : "" = encodeRaw [] := by
    rw [encodeRaw, List.map_nil, Radix.rebase_nil]
    rfl
  have hraw := decodeRaw?_eq_some.2 h.symm
  rw [decodeRaw?_eq_some.2 hnil] at hraw
  have hlength := congrArg List.length (Option.some.inj hraw)
  rw [List.length_append, length_checksum] at hlength
  exact nomatch hlength

theorem mem_alphabet_of_mem_encode {payload : Bytes} {c : Char}
    (hc : c ∈ (encode payload).toList) : c ∈ alphabet := by
  rw [encode, encodeRaw, String.toList_ofList] at hc
  obtain ⟨d, hd, rfl⟩ := List.mem_map.1 hc
  exact letter_mem_alphabet (Radix.lt_of_mem_rebase (by decide) hd)

theorem solid_encode (payload : Bytes) : Solid (encode payload) := by
  have hall : alphabet.all (fun c => !isBlank c) := by decide
  intro c hc
  simpa using List.all_eq_true.1 hall c (mem_alphabet_of_mem_encode hc)

/-- A text with a character that is no letter of the alphabet has no payload. -/
theorem decode_of_not_mem {s : String} {c : Char} (hc : c ∈ s.toList) (halphabet : c ∉ alphabet) :
    decode s = .error .invalidCharacter := by
  have hnone : decodeRaw? s = none := by
    rw [Option.eq_none_iff_forall_ne_some]
    intro b hb
    obtain rfl := decodeRaw?_eq_some.1 hb
    rw [encodeRaw, String.toList_ofList] at hc
    obtain ⟨d, hd, rfl⟩ := List.mem_map.1 hc
    exact halphabet (letter_mem_alphabet (Radix.lt_of_mem_rebase (by decide) hd))
  rw [decode, hnone]

end Attestor.Text.Base58
