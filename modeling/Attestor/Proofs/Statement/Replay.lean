import Attestor.Proofs.Statement.Kinds
import Attestor.Proofs.Text.Basic

/-! The two statements that a registered key signs for its user are never taken for one another,
although nothing in them names their kind. Behind the user one goes on with a count and the
version of an extended key, the other with the length of a name. No text reaches over a version,
since in both versions a continuation follows an ASCII byte. That leaves counts so small that the
version is cut, and those that announce a longer length: then the cut version says how long the
next text is, and that is more than there is, or the text would start with a continuation or
reach over the next key's version. -/

namespace Attestor

open Text (utf8 Follows)

/-- The first three bytes of a version stand in no text. -/
theorem Network.not_isChain_take_publicVersion (n : Network) :
    ¬ (n.publicVersion.take 3).IsChain Follows := by
  cases n <;> decide

/-- A text ends before the third byte of a version. -/
theorem Text.length_lt_of_append_publicVersion {s : String} {n : Network} {x y z : Bytes}
    (h : utf8 s ++ x = y ++ (n.publicVersion ++ z)) : (utf8 s).length < y.length + 3 := by
  by_contra hlen
  have hversion := ExtendedKey.length_publicVersion n
  have hprefix : y ++ n.publicVersion.take 3 <+: utf8 s := by
    have hwhole : y ++ n.publicVersion.take 3 <+: utf8 s ++ x := by
      rw [h, List.prefix_append_right_inj]
      exact (List.take_prefix 3 _).trans (List.prefix_append _ _)
    refine List.prefix_of_prefix_length_le hwhole (List.prefix_append _ _) ?_
    rw [List.length_append, List.length_take, hversion]
    omega
  exact n.not_isChain_take_publicVersion
    (Text.isChain_of_isInfix_utf8 ((List.suffix_append _ _).isInfix.trans hprefix.isInfix))

namespace Entity

/-- A text in front of few enough bytes has its length in one byte or in two behind a marker. -/
theorem textBytes_append_eq_cons {s : String} {x y : Bytes} {b : UInt8} (hy : y.length ≤ 0xffff)
    (h : textBytes s ++ x = b :: y) :
    (b.toNat < 0xfd ∧ (utf8 s).length = b.toNat ∧ utf8 s ++ x = y) ∨
      (b = 0xfd ∧ ∃ b₀ b₁ : UInt8, (utf8 s).length = b₀.toNat + 256 * b₁.toNat ∧
        y = b₀ :: b₁ :: (utf8 s ++ x)) := by
  have hlen := congrArg List.length h
  have hpos := List.length_pos_of_ne_nil (Chain.compact_ne_nil (utf8 s).length)
  simp only [textBytes, List.append_assoc, List.length_append, List.length_cons] at h hlen
  have hle : (utf8 s).length ≤ 0xffff := by omega
  unfold Chain.compact at h
  split_ifs at h with hshort
  · simp only [List.cons_append, List.nil_append, List.cons.injEq] at h
    refine .inl ⟨?_, ?_, h.2⟩
    all_goals rw [← h.1, UInt8.toNat_ofNat']; omega
  · simp only [Bytes.littleEndian, List.cons_append, List.nil_append, List.cons.injEq] at h
    refine .inr ⟨h.1.symm, _, _, ?_, h.2.symm⟩
    rw [UInt8.toNat_ofNat', UInt8.toNat_ofNat']
    omega

theorem canonical_eq_texts_append (e : Entity) :
    ∃ rest : Bytes, e.canonical = textBytes e.name ++ (textBytes e.kind ++ rest) :=
  ⟨_, by simp only [canonical, leading, List.flatMap_cons, List.append_assoc]; rfl⟩

end Entity

/-- An extended key starts with the version of its network. -/
theorem ExtendedKey.bytes_eq_publicVersion_append (k : ExtendedKey) :
    ∃ rest : Bytes, rest.length = 74 ∧ k.bytes.toList = k.network.publicVersion ++ rest := by
  refine ⟨_, ?_, rfl⟩
  have hlen := k.bytes.length_eq
  have hversion := length_publicVersion k.network
  simp only [bytes, List.length_append, size] at hlen ⊢
  omega

namespace Statement

open Entity (textBytes textBytes_append_eq_cons)

variable {s t : String} {x y z : Bytes}

/-- A text that starts with a continuation is empty. -/
theorem length_eq_zero_of_append_eq_cons {b : UInt8} (hb : Text.isContinuation b = true)
    (h : utf8 s ++ x = b :: y) : (utf8 s).length = 0 := by
  rcases hs : utf8 s with _ | ⟨c, l⟩
  · rfl
  · rw [hs, List.cons_append, List.cons.injEq] at h
    have hprefix : c :: l <+: utf8 s := by rw [hs]
    have hfirst := Text.isContinuation_head_of_isPrefix_utf8 hprefix
    rw [h.1, hb] at hfirst
    cases hfirst

/-- A name of one byte ends behind the first byte of a version, and the second one says how long
the kind is. -/
theorem ne_of_one_key (n : Network) (hz : z.length = 78) :
    textBytes s ++ (textBytes t ++ x) ≠ 1 :: (n.publicVersion ++ z) := by
  intro h
  have hlen : (n.publicVersion ++ z).length = 82 := by
    rw [List.length_append, ExtendedKey.length_publicVersion, hz]
  obtain ⟨-, hname, h⟩ | ⟨h, -⟩ := textBytes_append_eq_cons (by omega) h
  · cases n with
    | mainnet =>
      have h : utf8 s ++ (textBytes t ++ x) = [0x04] ++ (0x88 :: 0xb2 :: 0x1e :: z) := h
      obtain ⟨-, hkind, h⟩ | ⟨h, -⟩ :=
        textBytes_append_eq_cons (by simp [hz]) (List.append_inj h hname).2
      · -- a kind of 136 bytes in front of 80
        have hlen := congrArg List.length h
        simp only [List.length_append, hkind, List.length_cons, hz, UInt8.reduceToNat] at hlen
        omega
      · exact absurd h (by decide)
    | testnet =>
      have h : utf8 s ++ (textBytes t ++ x) = [0x04] ++ (0x35 :: 0x87 :: 0xcf :: z) := h
      obtain ⟨-, hkind, h⟩ | ⟨h, -⟩ :=
        textBytes_append_eq_cons (by simp [hz]) (List.append_inj h hname).2
      · rw [length_eq_zero_of_append_eq_cons (by decide) h] at hkind
        exact absurd hkind (by decide)
      · exact absurd h (by decide)
  · exact absurd h (by decide)

/-- A name of two bytes is no text, or the kind behind it reaches over the next version. -/
theorem ne_of_two_keys (n n' : Network) (hy : y.length = 74) (hz : z.length = 78) :
    textBytes s ++ (textBytes t ++ x) ≠
      2 :: (n.publicVersion ++ (y ++ (n'.publicVersion ++ z))) := by
  intro h
  have hlen : (n.publicVersion ++ (y ++ (n'.publicVersion ++ z))).length = 160 := by
    simp only [List.length_append, ExtendedKey.length_publicVersion, hy, hz]
  obtain ⟨-, hname, h⟩ | ⟨h, -⟩ := textBytes_append_eq_cons (by omega) h
  · cases n with
    | mainnet =>
      have h : utf8 s ++ (textBytes t ++ x) =
        [0x04, 0x88] ++ (0xb2 :: 0x1e :: (y ++ (n'.publicVersion ++ z))) := h
      have hchain : (utf8 s).IsChain Follows := Text.isChain_of_isInfix_utf8 List.infix_rfl
      rw [(List.append_inj h hname).1] at hchain
      exact absurd hchain (by decide)
    | testnet =>
      have h : utf8 s ++ (textBytes t ++ x) =
        [0x04, 0x35] ++ (0x87 :: 0xcf :: (y ++ (n'.publicVersion ++ z))) := h
      obtain ⟨-, hkind, h⟩ | ⟨h, -⟩ := textBytes_append_eq_cons
        (by simp [hy, hz, ExtendedKey.length_publicVersion]) (List.append_inj h hname).2
      · -- a kind of 135 bytes, of which 75 stand in front of the second version
        have hlt := Text.length_lt_of_append_publicVersion (y := 0xcf :: y) h
        simp only [hkind, List.length_cons, hy, UInt8.reduceToNat] at hlt
        omega
      · exact absurd h (by decide)
  · exact absurd h (by decide)

/-- A longer name reaches over the version, or starts in the middle of it. -/
theorem ne_of_more_keys (n : Network) {count : UInt8} (hcount : 3 ≤ count.toNat)
    (hz : z.length = 78 * count.toNat) : textBytes s ++ x ≠ count :: (n.publicVersion ++ z) := by
  intro h
  have hlen : (n.publicVersion ++ z).length = 4 + 78 * count.toNat := by
    rw [List.length_append, ExtendedKey.length_publicVersion, hz]
  have hlt := count.toNat_lt
  obtain ⟨-, hname, h⟩ | ⟨rfl, b₀, b₁, hname, h⟩ := textBytes_append_eq_cons (by omega) h
  · have hend := Text.length_lt_of_append_publicVersion (y := []) h
    rw [hname] at hend
    exact absurd hend (by simpa using hcount)
  · cases n with
    | mainnet =>
      -- a name of 34820 bytes, more than 253 keys have
      simp only [Network.publicVersion, List.cons_append, List.nil_append, List.cons.injEq] at h
      obtain ⟨rfl, rfl, h⟩ := h
      have hrest := congrArg List.length h
      simp only [List.length_append, hname, List.length_cons, hz, UInt8.reduceToNat] at hrest
      omega
    | testnet =>
      simp only [Network.publicVersion, List.cons_append, List.nil_append, List.cons.injEq] at h
      obtain ⟨rfl, rfl, h⟩ := h
      rw [length_eq_zero_of_append_eq_cons (by decide) h.symm] at hname
      exact absurd hname (by decide)

/-- The count and the first version in front of a key set and the number behind it. -/
theorem bytes_append_eq_publicVersion (keys : KeySet) {k : ExtendedKey} {more : List ExtendedKey}
    (hkeys : keys.keys = k :: more) (required : UInt32) : ∃ y : Bytes, y.length = 74 ∧
      keys.bytes ++ Bytes.littleEndian 4 required.toNat = UInt8.ofNat keys.size ::
        (k.network.publicVersion ++ (y ++ ((more.flatMap fun key => key.bytes.toList) ++
          Bytes.littleEndian 4 required.toNat))) := by
  obtain ⟨y, hy, hk⟩ := k.bytes_eq_publicVersion_append
  refine ⟨y, hy, ?_⟩
  simp only [KeySet.bytes, hkeys, List.flatMap_cons, hk, List.cons_append, List.append_assoc]

/-- The two statements that a registered key signs for its user differ in their bytes. -/
theorem bytes_addKeySet_ne_bytes_updateIdentity (user user' : UserId) (keys : KeySet)
    (required : UInt32) (e : Entity) :
    (addKeySet user keys required).bytes ≠ (updateIdentity user' e).bytes := by
  intro h
  simp only [bytes, List.append_assoc] at h
  obtain ⟨-, h⟩ := Octets.framed_toList 16 trivial trivial h
  obtain ⟨k, more, hkeys⟩ := List.exists_cons_of_ne_nil keys.ne_nil
  obtain ⟨y, hy, hbytes⟩ := bytes_append_eq_publicVersion keys hkeys required
  obtain ⟨x, htexts⟩ := e.canonical_eq_texts_append
  have hsize : keys.size = more.length + 1 := by rw [KeySet.size, hkeys, List.length_cons]
  have hcount : (UInt8.ofNat keys.size).toNat = keys.size :=
    UInt8.toNat_ofNat_of_lt' (Nat.lt_succ_of_le keys.length_le)
  have hlen := congrArg List.length hbytes
  rw [List.length_append, KeySet.length_bytes, Bytes.length_littleEndian, List.length_cons,
    List.length_append, ExtendedKey.length_publicVersion] at hlen
  rw [hbytes, htexts] at h
  rcases more with _ | ⟨l, _ | ⟨m, more⟩⟩
  · rw [hsize, List.length_nil] at h hlen
    exact ne_of_one_key k.network (by omega) h.symm
  · obtain ⟨y', hy', hl⟩ := l.bytes_eq_publicVersion_append
    rw [hsize, List.flatMap_singleton, hl, List.append_assoc] at h
    refine ne_of_two_keys k.network l.network hy ?_ h.symm
    rw [List.length_append, hy', Bytes.length_littleEndian]
  · rw [List.length_cons, List.length_cons] at hsize
    refine ne_of_more_keys k.network ?_ ?_ h.symm <;> omega

end Statement

end Attestor
