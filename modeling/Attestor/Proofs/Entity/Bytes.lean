import Attestor.Entity
import Attestor.Proofs.Framing
import Attestor.Proofs.Json.Record

/-! The two forms of an entity in bytes. The canonical bytes, which are signed, show where they end;
the stored JSON text is read back as the entity, whatever its texts contain. -/

namespace Attestor.Entity

/-! ### Canonical bytes

Every text stands after its length and every list of officers after its count, so the bytes of
an entity tell all of its fields, no matter what is written behind them. Lengths and counts are
numbers of 64 bits, as those of everything that is held in memory are. -/

open Chain (compact)

/-- The length of the text is a number of 64 bits. -/
def TextSized (s : String) : Prop := (Text.utf8 s).length < 2 ^ 64

instance (s : String) : Decidable (TextSized s) :=
  inferInstanceAs (Decidable ((Text.utf8 s).length < 2 ^ 64))

/-- The number of officers and the lengths of their names are numbers of 64 bits. -/
def OfficersSized (os : List Officer) : Prop :=
  os.length < 2 ^ 64 ∧ ∀ o ∈ os, TextSized o.name

instance (os : List Officer) : Decidable (OfficersSized os) :=
  inferInstanceAs (Decidable (_ ∧ _))

/-- All lengths and counts of the entity are numbers of 64 bits. -/
structure Sized (e : Entity) : Prop where
  leading : ∀ s ∈ e.leading, TextSized s
  administration : OfficersSized e.administration
  management : OfficersSized e.management
  trailing : ∀ s ∈ e.trailing, TextSized s

instance (e : Entity) : Decidable e.Sized :=
  decidable_of_iff ((∀ s ∈ e.leading, TextSized s) ∧ OfficersSized e.administration ∧
      OfficersSized e.management ∧ ∀ s ∈ e.trailing, TextSized s)
    ⟨fun ⟨hl, ha, hm, ht⟩ => ⟨hl, ha, hm, ht⟩, fun ⟨hl, ha, hm, ht⟩ => ⟨hl, ha, hm, ht⟩⟩

theorem framed_textBytes : Framed TextSized textBytes := by
  intro s t hs ht x y h
  simp only [textBytes, List.append_assoc] at h
  obtain ⟨hlen, h⟩ := Chain.framed_compact hs ht h
  obtain ⟨hst, hxy⟩ := List.append_inj h hlen
  exact ⟨Text.utf8_inj.1 hst, hxy⟩

theorem framed_officerBytes : Framed (fun o => TextSized o.name) officerBytes := by
  intro o p ho hp x y h
  simp only [officerBytes, List.append_assoc] at h
  obtain ⟨hrole, h⟩ := Bytes.framed_littleEndian 4 o.role.toNat_lt p.role.toNat_lt h
  obtain ⟨hname, hxy⟩ := framed_textBytes ho hp h
  cases o; cases p
  cases UInt32.toNat_inj.1 hrole
  cases hname
  exact ⟨rfl, hxy⟩

theorem framed_officersBytes : Framed OfficersSized officersBytes :=
  Chain.framed_counted framed_officerBytes

/-- An entity is told by its canonical bytes, whatever follows them. -/
theorem framed_canonical : Framed Sized canonical := by
  intro d e hd he x y h
  simp only [canonical, List.append_assoc] at h
  have hleading : d.leading.length = e.leading.length := rfl
  have htrailing : d.trailing.length = e.trailing.length := rfl
  obtain ⟨hl, h⟩ := framed_textBytes.flatMap hleading hd.leading he.leading h
  obtain ⟨ha, h⟩ := framed_officersBytes hd.administration he.administration h
  obtain ⟨hm, h⟩ := framed_officersBytes hd.management he.management h
  obtain ⟨ht, hxy⟩ := framed_textBytes.flatMap htrailing hd.trailing he.trailing h
  cases d; cases e
  simp_all [leading, trailing]

theorem one_le_length_textBytes (s : String) : 1 ≤ (textBytes s).length := by
  have := List.length_pos_of_ne_nil (Chain.compact_ne_nil (Text.utf8 s).length)
  simp only [textBytes, List.length_append]
  omega

theorem one_le_length_officersBytes (os : List Officer) : 1 ≤ (officersBytes os).length := by
  have := List.length_pos_of_ne_nil (Chain.compact_ne_nil os.length)
  simp only [officersBytes, List.length_append]
  omega

/-- The name stands in front, after its length. The fifteen other fields take a byte or more
each. -/
theorem canonical_eq_name_append (e : Entity) : ∃ rest : Bytes, 15 ≤ rest.length ∧
    e.canonical = compact (Text.utf8 e.name).length ++ (Text.utf8 e.name ++ rest) := by
  refine ⟨e.leading.tail.flatMap textBytes ++ officersBytes e.administration ++
    officersBytes e.management ++ e.trailing.flatMap textBytes, ?_, ?_⟩
  · have ht := one_le_length_textBytes
    have ho := one_le_length_officersBytes
    have := ht e.kind; have := ht e.lei; have := ht e.unitNumber; have := ht e.buildingNumber
    have := ht e.street; have := ht e.suburb; have := ht e.territory; have := ht e.country
    have := ht e.postalCode; have := ht e.email; have := ht e.phone
    have := ho e.administration; have := ho e.management
    have := ht e.domainName; have := ht e.paymail
    simp only [leading, trailing, List.tail_cons, List.flatMap_cons, List.flatMap_nil,
      List.length_append, List.length_nil]
    omega
  · simp only [canonical, leading, List.flatMap_cons, List.tail_cons, textBytes,
      List.append_assoc]

end Attestor.Entity

/-! ### JSON -/

namespace Attestor

open Json

namespace Officer

theorem ofDraft_toJson (o : Officer) : ofDraft o.toJson.draft = .ok o := by
  have hnames : (fields.map (·.name)).Nodup := by decide
  have hread := Record.read_object hnames
    [(Value.ofNat o.role.toNat).draft, .text (some o.name)] rfl ⟨0, ""⟩
  rw [toJson, Value.draft, ofDraft]
  refine hread.trans ?_
  simp only [Record.readAll, fields, List.zip_cons_cons, List.foldlM_cons, Member.of,
    Draft.asUInt32_ofNat]
  rfl

end Officer

namespace Entity

theorem ofDraft_toJson (e : Entity) : ofDraft e.toJson.draft = .ok e := by
  have hofficers : ∀ os : List Officer, Draft.asList Officer.ofDraft
      (Value.array (os.map Officer.toJson)).draft = .ok os :=
    Draft.asList_array Officer.ofDraft_toJson
  have hnames : (fields.map (·.name)).Nodup := by decide
  have hread := Record.read_object hnames
    [.text (some e.name), .text (some e.kind), .text (some e.lei),
      .text (some e.unitNumber), .text (some e.buildingNumber), .text (some e.street),
      .text (some e.suburb), .text (some e.territory), .text (some e.country),
      .text (some e.postalCode), .text (some e.email), .text (some e.phone),
      (Value.array (e.administration.map Officer.toJson)).draft,
      (Value.array (e.management.map Officer.toJson)).draft, .text (some e.domainName),
      .text (some e.paymail)] rfl empty
  rw [toJson, Value.draft, ofDraft]
  refine hread.trans ?_
  simp only [Record.readAll, fields, List.zip_cons_cons, List.foldlM_cons, detail, Member.of,
    hofficers]
  rfl

theorem ofBytes_bytes (e : Entity) : ofBytes e.bytes = .ok e := by
  rw [ofBytes, parse, bytes, Draft.ofBytes_bytes]
  simp only [ofDraft_toJson]
  rfl

end Entity

end Attestor
