import Attestor.Proofs.Framing
import Attestor.Proofs.Json.Record
import Attestor.Proofs.Node.Client
import Attestor.Proofs.Text.Digits

/-! A node that serves a chain. Its replies are JSON, hashes and headers in hexadecimal digits,
and may answer the calls of a batch in any order. Two such replies tell the headers of a range. -/

namespace Attestor.Node

open Json (Value Draft)
open Wire (Reply)

namespace Envelope

variable {α : Type}

/-- An envelope as a node writes it. -/
def answerValue (id result : Value) : Value :=
  .object [("result", result), ("error", .null), ("id", id)]

theorem ofDraft_answerValue {outer : ℕ} {value : Draft → Except Json.Fault α} {id result : Value}
    {a : α} {number : Option ℕ} (hnull : result.draft ≠ .null)
    (hresult : value result.draft = .ok a)
    (hid : asId (outer + 1) id.draft = .ok number) :
    ofDraft outer value (answerValue id result).draft = .ok ⟨some a, none, number⟩ := by
  have hnames : ((fields outer value).map (·.name)).Nodup := by
    change ["result", "error", "id"].Nodup
    decide
  have hread := Json.Record.read_object hnames [result.draft, .null, id.draft] rfl
    ⟨none, none, none⟩
  rw [answerValue, Value.draft, ofDraft]
  refine hread.trans ?_
  simp only [Json.Record.readAll, fields, List.zip_cons_cons, List.foldlM_cons, Json.Member.of,
    Draft.asOptional_of_ne_null value hnull, hresult, hid]
  rfl

theorem asId_ofNat {outer n : ℕ} (hn : n < UInt64.size) :
    asId outer (Value.ofNat n).draft = .ok (some n) := by
  rw [asId, if_pos (Draft.isKept_ofNat hn _), Draft.asNat_ofNat hn le_rfl]
  rfl

end Envelope

namespace Client

/-- A reply that answers calls, in this order. -/
def batchReply (answers : List (ℕ × String)) : Reply :=
  ⟨200, (Value.array (answers.map fun a =>
    Envelope.answerValue (.ofNat a.1) (.text a.2))).bytes⟩

section Answers

variable {β : Type} {answers : List (ℕ × String)} (hlt : ∀ a ∈ answers, a.1 < UInt64.size)
include hlt

theorem receive_batchReply :
    receive (Draft.asList (Envelope.ofDraft 1 Draft.asText)) (some (batchReply answers)) =
      .ok (answers.map fun a => ⟨some a.2, none, some a.1⟩) := by
  have hread : Draft.asList (Envelope.ofDraft 1 Draft.asText) (Value.array (answers.map fun a =>
      Envelope.answerValue (.ofNat a.1) (.text a.2))).draft =
      .ok (answers.map fun a => ⟨some a.2, none, some a.1⟩) :=
    Draft.asList_map fun a ha =>
      Envelope.ofDraft_answerValue nofun rfl (Envelope.asId_ofNat (hlt a ha))
  rw [receive, batchReply, Json.parse, Draft.ofBytes_bytes]
  simp only [hread]
  rfl

/-- Where an answer stands does not matter, if no call is answered twice. -/
theorem tells_batchReply (hdistinct : (answers.map Prod.fst).Nodup) {i : ℕ} {s : String}
    (hs : (i, s) ∈ answers) {read : String → Except Chain.Error β} {x : β}
    (hread : read s = .ok x) : Tells read (some (batchReply answers)) i x := by
  refine ⟨_, s, receive_batchReply hlt, ⟨⟨some s, none, some i⟩, ?_, rfl, rfl⟩, hread⟩
  refine Envelope.last?_eq_some_of_nodup ?_ (List.mem_map.2 ⟨(i, s), hs, rfl⟩) rfl
  have hids : (answers.map fun a => (⟨some a.2, none, some a.1⟩ : Envelope String)).filterMap
      Envelope.id = answers.map Prod.fst := by
    rw [List.filterMap_map, ← List.filterMap_eq_map']
    rfl
  rw [hids]
  exact hdistinct

end Answers

/-- Replies that answer every call of a range truly, each in any order, tell the headers of the
range. -/
theorem told_batchReply {first last : UInt32} {found : List Header}
    (hlen : found.length = last.toNat - first.toNat + 1) (hrun : Header.Run found)
    {hashes headers : List (ℕ × String)}
    (hhashes : hashes.Perm (found.mapIdx fun i h => (i, Digest.text h.id)))
    (hheaders : headers.Perm (found.mapIdx fun i h => (i, Text.Hex.encode h.bytes))) :
    Told first last (some (batchReply hashes)) (some (batchReply headers)) found := by
  have htells {β : Type} {read : String → Except Chain.Error β} {write : Header → String}
      {value : Header → β} (hread : ∀ h, read (write h) = .ok (value h))
      {answers : List (ℕ × String)} (hperm : answers.Perm (found.mapIdx fun i h => (i, write h)))
      (i : ℕ) (h : Header) (hh : found[i]? = some h) :
      Tells read (some (batchReply answers)) i (value h) := by
    have hfst : (found.mapIdx fun i h => (i, write h)).map Prod.fst = List.range found.length :=
      List.ext_getElem (by simp) (by simp)
    refine tells_batchReply (fun a ha => ?_) ?_ (hperm.mem_iff.2 ?_) (hread h)
    · have hmem : a.1 ∈ List.range found.length :=
        hfst ▸ List.mem_map_of_mem (hperm.mem_iff.1 ha)
      have hlast := last.toNat_lt
      have hmem := List.mem_range.1 hmem
      have : UInt64.size = 2 ^ 64 := rfl
      omega
    · rw [(hperm.map Prod.fst).nodup_iff, hfst]
      exact List.nodup_range
    · obtain ⟨hi, rfl⟩ := List.getElem?_eq_some_iff.1 hh
      exact List.mem_mapIdx.2 ⟨i, hi, rfl⟩
  refine ⟨hlen, hrun, htells (fun h => Digest.parse_text h.id) hhashes,
    htells (fun h => ?_) hheaders⟩
  rw [readHeader, ofHex, Text.Hex.decode_encode]
  exact Header.ofBytes_bytes h

/-- A reply that reports the height of the newest block. -/
def tipReply (tip : UInt32) : Reply :=
  ⟨200, (Envelope.answerValue (.text "identity-oracle") (.ofNat tip.toNat)).bytes⟩

theorem reports_tipReply (tip : UInt32) : Reports (some (tipReply tip)) tip := by
  have hread : Envelope.ofDraft 0 Draft.asUInt32 (Envelope.answerValue (.text "identity-oracle")
      (.ofNat tip.toNat)).draft = .ok ⟨some tip, none, none⟩ :=
    Envelope.ofDraft_answerValue nofun (Draft.asUInt32_ofNat tip) rfl
  refine ⟨⟨some tip, none, none⟩, ?_, rfl, rfl⟩
  rw [receive, tipReply, Json.parse, Draft.ofBytes_bytes]
  simp only [hread]
  rfl

end Client

end Attestor.Node
