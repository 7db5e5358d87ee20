import Attestor.Proofs.Key.Bytes
import Attestor.Proofs.Statement.Kinds

/-! What the bytes of a statement tell of it. Kinds may be confused, but among statements of one
kind every field shows where it ends, so the bytes tell all of them. Lengths are numbers of 64
bits, and an address lists as many hashes as its count of 16 bits can say. -/

namespace Attestor.Statement

/-- The entities and addresses in the statement have lengths and counts that can be written. -/
structure Sized (s : Statement) : Prop where
  entities : ∀ e ∈ s.entities, e.Sized
  addresses : ∀ a ∈ s.addresses, a.Sized

instance (s : Statement) : Decidable s.Sized :=
  decidable_of_iff ((∀ e ∈ s.entities, e.Sized) ∧ ∀ a ∈ s.addresses, a.Sized)
    ⟨fun ⟨he, ha⟩ => ⟨he, ha⟩, fun ⟨he, ha⟩ => ⟨he, ha⟩⟩

/-- The target of a certificate, whose first byte tells an entity from an address. -/
def TargetSized : AdminTarget → Prop
  | .entity e => e.Sized
  | .contract a => a.Sized

theorem framed_targetBytes : Framed TargetSized targetBytes := by
  intro c d hc hd x y h
  cases c <;> cases d <;> simp only [targetBytes, List.cons_append, List.cons.injEq] at h
  case entity.entity =>
    obtain ⟨rfl, hxy⟩ := Entity.framed_canonical hc hd h.2
    exact ⟨rfl, hxy⟩
  case contract.contract =>
    obtain ⟨rfl, hxy⟩ := Address.framed_bytes hc hd h.2
    exact ⟨rfl, hxy⟩
  case entity.contract | contract.entity => exact absurd h.1 (by decide)

theorem targetSized_of_admin {a : Address} {target : AdminTarget} {block : Digest}
    {expiration : UInt64} {approved : Bool}
    (h : (admin a target block expiration approved).Sized) : TargetSized target := by
  cases target with
  | entity e => exact h.entities e (by simp [Statement.entities])
  | contract c => exact h.addresses c (by simp [Statement.addresses])

theorem address_mem_addresses_admin (a : Address) (target : AdminTarget) (block : Digest)
    (expiration : UInt64) (approved : Bool) :
    a ∈ (admin a target block expiration approved).addresses := by
  cases target <;> simp [Statement.addresses]

/-- The block and the flag at the end of an attestation. -/
theorem eq_of_closing_eq {block block' : Digest} {approved approved' : Bool}
    (h : block.toList ++ flag approved = block'.toList ++ flag approved') :
    block = block' ∧ approved = approved' := by
  obtain ⟨hblock, hflag⟩ := Octets.framed_toList 32 trivial trivial h
  exact ⟨hblock, flag_inj.1 hflag⟩

/-- The block, the expiration and the flag at the end of an attestation of an address. -/
theorem eq_of_expiring_closing_eq {block block' : Digest} {expiration expiration' : UInt64}
    {approved approved' : Bool}
    (h : block.toList ++ (Bytes.littleEndian 8 expiration.toNat ++ flag approved) =
      block'.toList ++ (Bytes.littleEndian 8 expiration'.toNat ++ flag approved')) :
    block = block' ∧ expiration = expiration' ∧ approved = approved' := by
  obtain ⟨hblock, h⟩ := Octets.framed_toList 32 trivial trivial h
  obtain ⟨hexpiration, hflag⟩ :=
    Bytes.framed_littleEndian 8 expiration.toNat_lt expiration'.toNat_lt h
  exact ⟨hblock, UInt64.toNat_inj.1 hexpiration, flag_inj.1 hflag⟩

/-- Among statements of one kind the bytes tell every field. -/
theorem bytes_inj_of_kind_eq {s t : Statement} (hs : s.Sized) (ht : t.Sized)
    (hkind : s.kind = t.kind) : s.bytes = t.bytes ↔ s = t := by
  refine ⟨fun h => ?_, fun h => h ▸ rfl⟩
  cases s <;> cases t <;> simp only [kind, reduceCtorEq] at hkind <;>
    simp only [bytes, List.append_assoc] at h
  case entityKey.entityKey d _ _ _ e _ _ _ =>
    obtain ⟨rfl, hrest⟩ := Entity.framed_canonical (hs.entities d (by simp [entities]))
      (ht.entities e (by simp [entities])) h
    obtain ⟨rfl, hclosing⟩ := PublicKey.framed_bytes trivial trivial hrest
    obtain ⟨rfl, rfl⟩ := eq_of_closing_eq hclosing
    rfl
  case entityKeys.entityKeys d _ _ _ e _ _ _ =>
    obtain ⟨rfl, hrest⟩ := Entity.framed_canonical (hs.entities d (by simp [entities]))
      (ht.entities e (by simp [entities])) h
    obtain ⟨rfl, hclosing⟩ := KeySet.framed_bytes trivial trivial hrest
    obtain ⟨rfl, rfl⟩ := eq_of_closing_eq hclosing
    rfl
  case admin.admin a _ _ _ _ b _ _ _ _ =>
    obtain ⟨rfl, hrest⟩ := Address.framed_bytes (hs.addresses a (address_mem_addresses_admin ..))
      (ht.addresses b (address_mem_addresses_admin ..)) h
    obtain ⟨rfl, hclosing⟩ :=
      framed_targetBytes (targetSized_of_admin hs) (targetSized_of_admin ht) hrest
    obtain ⟨rfl, rfl, rfl⟩ := eq_of_expiring_closing_eq hclosing
    rfl
  case transfer.transfer c _ r _ _ _ d _ q _ _ _ =>
    obtain ⟨rfl, hcode⟩ := Address.framed_bytes (hs.addresses c (by simp [addresses]))
      (ht.addresses d (by simp [addresses])) h
    obtain ⟨rfl, hreceiver⟩ := Octets.framed_toList 20 trivial trivial hcode
    obtain ⟨rfl, hclosing⟩ := Address.framed_bytes (hs.addresses r (by simp [addresses]))
      (ht.addresses q (by simp [addresses])) hreceiver
    obtain ⟨rfl, rfl, rfl⟩ := eq_of_expiring_closing_eq hclosing
    rfl
  case registration.registration d e =>
    rw [(Entity.framed_canonical.inj (hs.entities d (by simp [entities]))
      (ht.entities e (by simp [entities]))).1 h]
  case addKeySet.addKeySet _ _ required _ _ required' =>
    obtain ⟨rfl, hkeys⟩ := Octets.framed_toList 16 trivial trivial h
    obtain ⟨rfl, hnumber⟩ := KeySet.framed_bytes trivial trivial hkeys
    have hrequired := (Bytes.littleEndian_inj required.toNat_lt required'.toNat_lt).1 hnumber
    rw [UInt32.toNat_inj.1 hrequired]
  case updateIdentity.updateIdentity _ d _ e =>
    obtain ⟨rfl, hentity⟩ := Octets.framed_toList 16 trivial trivial h
    rw [(Entity.framed_canonical.inj (hs.entities d (by simp [entities]))
      (ht.entities e (by simp [entities]))).1 hentity]

/-- The same letters, divided in two ways between the name and the kind of an entity, in
certificates that agree in all else. -/
def dividedAdmin (name kind : String) : Statement :=
  admin (.multiKey 1 [.replicate 20 1, .replicate 20 2])
    (.entity { Entity.empty with name, kind, administration := [⟨3, "x"⟩] }) Digest.zero 9 true

theorem bytes_dividedAdmin_ne :
    (dividedAdmin "ab" "c").bytes ≠ (dividedAdmin "a" "bc").bytes := by
  intro h
  have hsized : (dividedAdmin "ab" "c").Sized ∧ (dividedAdmin "a" "bc").Sized := by
    decide +kernel
  exact absurd ((bytes_inj_of_kind_eq hsized.1 hsized.2 rfl).1 h) (by decide)

end Attestor.Statement
