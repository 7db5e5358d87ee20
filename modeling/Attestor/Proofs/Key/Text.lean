import Attestor.Proofs.Key.Read
import Attestor.Proofs.Text.Basic
import Attestor.Proofs.Text.Digits

/-! The texts of keys and of key sets. The text of a set is read by its parts between commas:
blanks around them and parts that are blank are left out, and what remains must be the texts of
the keys. The text of a key has no comma and no blank, so a set is read back from its text. -/

namespace Attestor

namespace ExtendedKey

variable {key : ExtendedKey} {s : String}

theorem parse_eq_ok : parse s = .ok key ↔ Text.trim s = key.text := by
  rw [text, ← Text.Base58.decode_eq_ok, parse]
  cases Text.Base58.decode (Text.trim s) with
  | error fault => simp
  | ok b => simp only [ofBytes_eq_ok, Except.ok.injEq]

theorem trim_text (key : ExtendedKey) : Text.trim key.text = key.text :=
  Text.trim_of_solid (Text.Base58.solid_encode _)

theorem comma_not_mem_text (key : ExtendedKey) : ',' ∉ key.text.toList := fun h =>
  absurd (Text.Base58.mem_alphabet_of_mem_encode h) (by decide)

end ExtendedKey

namespace KeySet

variable {set : KeySet} {s : String}

theorem mapM_parse_eq_ok {parts : List String} {keys : List ExtendedKey} :
    ((parts.map Text.trim).filter (· ≠ "")).mapM ExtendedKey.parse = .ok keys ↔
      (parts.map Text.trim).filter (· ≠ "") = keys.map ExtendedKey.text := by
  have htrim : ((parts.map Text.trim).filter (· ≠ "")).map Text.trim =
      (parts.map Text.trim).filter (· ≠ "") := by
    refine (List.map_congr_left fun part hpart => ?_).trans (List.map_id _)
    obtain ⟨s, -, rfl⟩ := List.mem_map.1 (List.mem_of_mem_filter hpart)
    exact Text.trim_trim s
  rw [mapM_eq_ok]
  simp only [ExtendedKey.parse_eq_ok]
  rw [← List.forall₂_map_left_iff (R := fun part key => part = ExtendedKey.text key), htrim]
  exact forall₂_iff_eq_map fun _ _ => Iff.rfl

theorem parse_eq_ok : parse s = .ok set ↔
    ((Text.split ',' s).map Text.trim).filter (· ≠ "") = set.keys.map ExtendedKey.text := by
  rw [← mapM_parse_eq_ok]
  simp only [parse, bind_eq_ok, ofKeys_eq_ok, exists_eq_right]

theorem trimmed_texts (keys : List ExtendedKey) :
    ((keys.map ExtendedKey.text).map Text.trim).filter (· ≠ "") = keys.map ExtendedKey.text := by
  rw [List.map_map, List.map_congr_left fun key _ => key.trim_text, List.filter_eq_self]
  exact List.forall_mem_map.2 fun key _ =>
    decide_eq_true (Text.Base58.encode_ne_empty key.bytes.toList)

theorem comma_not_mem_texts (keys : List ExtendedKey) :
    ∀ part ∈ keys.map ExtendedKey.text, ',' ∉ part.toList :=
  List.forall_mem_map.2 fun key _ => key.comma_not_mem_text

theorem parse_text (set : KeySet) : parse set.text = .ok set := by
  rw [parse_eq_ok, text, Text.trimmed_split_intercalate rfl (comma_not_mem_texts set.keys),
    trimmed_texts]

/-- Blanks around the parts of a text and blank parts between them change nothing. -/
theorem parse_intercalate_of_spaced {parts others : List String}
    (hparts : ∀ part ∈ parts, ',' ∉ part.toList) (h : Text.Spaced parts others) :
    parse (",".intercalate others) = parse (",".intercalate parts) := by
  have hothers := h.not_mem (show Text.isBlank ',' = false by decide) hparts
  have hsame : ((Text.split ',' (",".intercalate others)).map Text.trim).filter (· ≠ "") =
      ((Text.split ',' (",".intercalate parts)).map Text.trim).filter (· ≠ "") := by
    rw [Text.trimmed_split_intercalate rfl hothers, h.trimmed_eq,
      Text.trimmed_split_intercalate rfl hparts]
  simp only [parse, hsame]

/-- What is read as a set is a text of its keys' texts, with blanks and blank parts about them. -/
theorem parse_eq_ok_iff_spaced : parse s = .ok set ↔
    ∃ others, Text.Spaced (set.keys.map ExtendedKey.text) others ∧ s = ",".intercalate others := by
  constructor
  · intro h
    refine ⟨Text.split ',' s, ?_, (Text.intercalate_split rfl s).symm⟩
    exact parse_eq_ok.1 h ▸ Text.spaced_trimmed _
  · rintro ⟨others, h, rfl⟩
    rw [parse_intercalate_of_spaced (comma_not_mem_texts set.keys) h]
    exact parse_text set

/-- A stored form is a count from one to 255 and as many blocks, none of them of a private key, and
it is read as the set that has it. The texts of the keys of a set, joined by commas, are read as
that set. In any text that is read, blanks around its parts and blank parts among them change
nothing, and the other parts are the texts of the keys of the set in their order. -/
theorem forms_canonical :
    (∀ b, (∃ set, ofBytes b = .ok set) ↔ IsStored b) ∧
    (∀ b set, ofBytes b = .ok set ↔ b = set.bytes) ∧
    (∀ (count : UInt8) (blocks : List Bytes) (network : Network),
      (∀ block ∈ blocks, block.length = ExtendedKey.size) →
        ∀ block ∈ blocks, network.privateVersion <+: block →
          ExtendedKey.ofBytes block = .error .privateKey ∧
            ∀ set, ofBytes (count :: blocks.flatten) ≠ .ok set) ∧
    (∀ set, parse set.text = .ok set) ∧
    (∀ parts others : List String, (∀ part ∈ parts, ',' ∉ part.toList) →
      Text.Spaced parts others →
        parse (",".intercalate others) = parse (",".intercalate parts)) ∧
    ∀ s set, parse s = .ok set ↔
      ∃ others, Text.Spaced (set.keys.map ExtendedKey.text) others ∧
        s = ",".intercalate others := by
  refine ⟨fun b => ?_, fun _ _ => ofBytes_eq_ok, ?_, parse_text,
    fun _ _ => parse_intercalate_of_spaced, fun _ _ => parse_eq_ok_iff_spaced⟩
  · simp only [ofBytes_eq_ok, isStored_iff]
  · intro count blocks network hblocks block hblock hversion
    exact ⟨ExtendedKey.ofBytes_of_privateVersion (hblocks block hblock) hversion,
      fun set => ofBytes_ne_ok_of_privateVersion hblocks hblock hversion⟩

/-- The generator as the root of a tree on either network, with blanks around the two texts and
blank parts before and between them; and a private key's version alone, after a count of one. -/
theorem forms_canonical_generator :
    (∃ k l set, k = ExtendedKey.root .mainnet default .generator ∧
      l = ExtendedKey.root .testnet default .generator ∧ set.keys = [k, l] ∧
      IsStored set.bytes ∧ ofBytes set.bytes = .ok set ∧
      parse (",".intercalate ["", " " ++ k.text, "\t", l.text ++ "\r\n"]) = .ok set) ∧
    ∀ set, ofBytes (1 :: (Network.testnet.privateVersion ++ List.replicate 74 0)) ≠ .ok set := by
  obtain ⟨hstored, hbytes, hprivate, htext, hspaced, -⟩ := forms_canonical
  constructor
  · refine ⟨_, _, ⟨[.root .mainnet default .generator, .root .testnet default .generator],
      List.cons_ne_nil _ _, by decide⟩, rfl, rfl, rfl, (hstored _).1 ⟨_, (hbytes _ _).2 rfl⟩,
      (hbytes _ _).2 rfl, ?_⟩
    refine (hspaced _ _ (comma_not_mem_texts _) ?_).trans (htext _)
    refine .blank (Text.Padded.refl _) (.part ?_ (.blank ?_ (.part ?_ .nil)))
    · exact ⟨[' '], [], by simp [Text.isBlank], nofun, String.append_empty.symm⟩
    · exact ⟨['\t'], [], by simp [Text.isBlank], nofun, rfl⟩
    · exact ⟨[], ['\r', '\n'], nofun, by simp [Text.isBlank],
        by rw [String.ofList_nil, String.empty_append]⟩
  · have hblocks : ∀ block ∈ [Network.testnet.privateVersion ++ List.replicate 74 0],
        block.length = ExtendedKey.size := by simp [Network.privateVersion, ExtendedKey.size]
    have h := (hprivate 1 _ .testnet hblocks _ (List.mem_singleton.2 rfl)
      (List.prefix_append _ _)).2
    rwa [List.flatten_singleton] at h

end KeySet

end Attestor
