import Attestor.Formation
import Attestor.Proofs.Chain.Script
import Attestor.Proofs.Entity.Bytes

/-! Formations and the scripts that carry them. A formation's terms are read back from their
JSON whatever its texts contain, with an issuer or without. The script written for them is a
return with three pushes, and a script is read as a formation exactly when it is such a return,
under the same protocol name and with terms that read as the formation. -/

namespace Attestor

open Json

namespace Formation

/-! ### The terms as JSON -/

/-- The issuer is null or an entity. -/
theorem asOptional_issuer (issuer : Option Entity) :
    Draft.asOptional Entity.ofDraft (issuer.elim .null Entity.toJson).draft = .ok issuer := by
  cases issuer with
  | none => rfl
  | some e =>
    have hobject : e.toJson.draft ≠ .null := fun h => by
      rw [Entity.toJson, Value.draft] at h
      cases h
    refine (Draft.asOptional_of_ne_null Entity.ofDraft hobject).trans ?_
    rw [e.ofDraft_toJson]
    rfl

theorem toJson_eq (f : Formation) : f.toJson = .object
    [("contract_name", .text f.name), ("contract_type", .text f.kind),
      ("issuer", f.issuer.elim .null Entity.toJson),
      ("contract_revision", .ofNat f.revision.toNat),
      ("timestamp", .ofNat f.timestamp.toNat)] := by
  obtain ⟨name, kind, issuer, revision, timestamp⟩ := f
  cases issuer <;> rfl

theorem ofDraft_toJson (f : Formation) : ofDraft f.toJson.draft = .ok f := by
  have hnames : (fields.map (·.name)).Nodup := by decide
  have hread := Record.read_object hnames
    [.text (some f.name), .text (some f.kind), (f.issuer.elim .null Entity.toJson).draft,
      (Value.ofNat f.revision.toNat).draft, (Value.ofNat f.timestamp.toNat).draft] rfl empty
  rw [toJson_eq, Value.draft, ofDraft]
  refine hread.trans ?_
  simp only [Record.readAll, fields, List.zip_cons_cons, List.foldlM_cons, Member.of,
    asOptional_issuer, Draft.asUInt32_ofNat, Draft.asUInt64_ofNat]
  rfl

theorem ofBytes_bytes (f : Formation) : ofBytes f.toJson.bytes = .ok f := by
  rw [ofBytes, parse, Draft.ofBytes_bytes]
  simp only [ofDraft_toJson]
  rfl

/-! ### The script -/

theorem protocolId_inj {s t : Bool} : protocolId s = protocolId t ↔ s = t := by
  constructor
  · intro h
    cases s <;> cases t <;> first | rfl | exact absurd h (by decide)
  · rintro rfl
    rfl

/-- A script whose pushes are a protocol name, the action code and a payload is read for the
payload under that name only. -/
theorem ofScript_of_isReturn {script payload : Bytes} {isTest : Bool}
    (h : Script.IsReturn [protocolId isTest, actionCode, payload] script) (asTest : Bool) :
    ofScript script asTest =
      if isTest = asTest then (ofBytes payload).mapError .payload else .error .wrongProtocol := by
  have hpushes := Script.returnPushes_eq_some.2 h
  simp only [ofScript, hpushes, ne_eq, protocolId_inj, not_true_eq_false, if_false, ite_not]

theorem ofScript_eq_ok {script : Bytes} {isTest : Bool} {f : Formation} :
    ofScript script isTest = .ok f ↔
      ∃ payload, Script.IsReturn [protocolId isTest, actionCode, payload] script ∧
        ofBytes payload = .ok f := by
  constructor
  · intro h
    unfold ofScript at h
    split at h
    · rename_i protocol code payload hpushes
      split_ifs at h with hprotocol hcode
      obtain rfl := not_not.1 hprotocol
      obtain rfl := not_not.1 hcode
      refine ⟨payload, Script.returnPushes_eq_some.1 hpushes, ?_⟩
      cases hread : ofBytes payload with
      | ok g => exact congrArg Except.ok (Except.ok.inj (hread ▸ h))
      | error e => rw [hread] at h; exact nomatch h
    · exact nomatch h
  · rintro ⟨payload, hreturn, hread⟩
    rw [ofScript_of_isReturn hreturn, if_pos rfl, hread]
    rfl

theorem toScript_eq_ok (f : Formation) (isTest : Bool)
    (hroom : f.toJson.bytes.length < UInt32.size) :
    ∃ script, f.toScript isTest = .ok script ∧
      Script.IsReturn [protocolId isTest, actionCode, f.toJson.bytes] script := by
  have hprotocol : (protocolId isTest).length < UInt32.size := by cases isTest <;> decide
  have hcode : actionCode.length < UInt32.size := by decide
  have hitems : ∀ item ∈ [protocolId isTest, actionCode, f.toJson.bytes],
      item.length < UInt32.size :=
    List.forall_mem_cons.2 ⟨hprotocol, List.forall_mem_cons.2 ⟨hcode,
      List.forall_mem_singleton.2 hroom⟩⟩
  obtain ⟨script, hscript, hreturn⟩ := Script.ofReturn_eq_ok hitems
  exact ⟨script, by rw [toScript, hscript], hreturn⟩

/-- Terms that fit into a push are carried by a script that is read back under its own protocol
name and refused under the other; and a script is read as a formation exactly when it is a
return with three pushes, the protocol name, the action code and text that reads as the
formation. -/
theorem script_carries_formation (f : Formation) (isTest : Bool) :
    (f.toJson.bytes.length < UInt32.size →
      ∃ script, f.toScript isTest = .ok script ∧ ofScript script isTest = .ok f ∧
        ofScript script (!isTest) = .error .wrongProtocol) ∧
    ∀ script, ofScript script isTest = .ok f ↔
      ∃ payload, Script.IsReturn [protocolId isTest, actionCode, payload] script ∧
        ofBytes payload = .ok f := by
  refine ⟨fun hroom => ?_, fun _ => ofScript_eq_ok⟩
  obtain ⟨script, hscript, hreturn⟩ := toScript_eq_ok f isTest hroom
  refine ⟨script, hscript, ofScript_eq_ok.2 ⟨_, hreturn, f.ofBytes_bytes⟩, ?_⟩
  rw [ofScript_of_isReturn hreturn, if_neg (by cases isTest <;> decide)]

/-- Terms with quotes, a backslash and a null in their texts, an issuer of which nothing is
known, and the greatest numbers. -/
def intricate : Formation :=
  ⟨"\"A\\B\"", "\x00", some Entity.empty, 4294967295, 18446744073709551615⟩

theorem script_carries_intricate :
    intricate.toJson.bytes.length < UInt32.size ∧
      ∃ script, intricate.toScript false = .ok script ∧ ofScript script false = .ok intricate ∧
        ofScript script true = .error .wrongProtocol := by
  have hroom : intricate.toJson.bytes.length < UInt32.size := by decide +kernel
  exact ⟨hroom, (script_carries_formation intricate false).1 hroom⟩

end Formation

end Attestor
