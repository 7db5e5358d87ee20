import Attestor.Proofs.Address.Bytes
import Attestor.Proofs.Entity.Bytes
import Attestor.Statement

/-! Which attestations can be taken for one another. Nothing in the bytes of an attestation
names its kind, so two kinds differ only where their fields cannot be laid over each other. A
key and a key set of an entity never agree, nor do an administrator of a contract and a
receiver. An entity is laid over an address when its name is as long as the first byte of the
address says and the other attestation holds an entity or the hashes of several keys; an
administered entity is laid over the code and the address of a receiver. -/

namespace Attestor

theorem KeySet.length_bytes (set : KeySet) : set.bytes.length = 1 + 78 * set.size := by
  have hkeys : ∀ l : List ExtendedKey, (l.flatMap fun key => key.bytes.toList).length =
      78 * l.length := by
    intro l
    induction l with
    | nil => rfl
    | cons key l ih =>
      simp only [List.flatMap_cons, List.length_append, key.bytes.length_eq, ih, List.length_cons,
        ExtendedKey.size]
      ring
  simp only [bytes, List.length_cons, hkeys, size]
  ring

namespace Statement

open Chain (compact)

/-- What a statement says, whatever it says it of. -/
inductive Kind where
  | entityKey
  | entityKeys
  | admin
  | transfer
  | registration
  | addKeySet
  | updateIdentity
  deriving DecidableEq

def kind : Statement → Kind
  | entityKey .. => .entityKey
  | entityKeys .. => .entityKeys
  | admin .. => .admin
  | transfer .. => .transfer
  | registration .. => .registration
  | addKeySet .. => .addKeySet
  | updateIdentity .. => .updateIdentity

/-- The statements that the oracle signs. -/
def IsAttestation (s : Statement) : Prop :=
  s.kind ∈ [Kind.entityKey, .entityKeys, .admin, .transfer]

instance (s : Statement) : Decidable s.IsAttestation := inferInstanceAs (Decidable (_ ∈ _))

def entities : Statement → List Entity
  | entityKey e _ _ _ | entityKeys e _ _ _ | admin _ (.entity e) _ _ _ | registration e
  | updateIdentity _ e => [e]
  | _ => []

/-- The addresses in a statement, in order. -/
def addresses : Statement → List Address
  | admin a (.entity _) _ _ _ => [a]
  | admin a (.contract c) _ _ _ => [a, c]
  | transfer c _ r _ _ _ => [c, r]
  | _ => []

/-- The name of the entity has the place of the address in front of the statement: it is as
long as the first byte of the address says and agrees with the other bytes as far as both go.
The statement has room for the rest of the entity. -/
def NameCovers (e : Entity) (t : Statement) : Prop :=
  ∃ a ∈ t.addresses.head?, (Text.utf8 e.name).length = a.tag.toNat ∧
    (a.body <+: Text.utf8 e.name ∨ Text.utf8 e.name <+: a.body) ∧
    (t.entities ≠ [] ∨ ∃ b ∈ t.addresses, b.IsMulti)

/-- How two attestations of different kinds may come to have the same bytes. -/
def Confusable : Statement → Statement → Prop
  | entityKey e _ _ _, t | entityKeys e _ _ _, t => NameCovers e t
  | admin a (.entity e) block expiration approved, transfer c code r block' expiration' approved' =>
    a.bytes ++ 0x00 :: e.canonical = c.bytes ++ code.toList ++ r.bytes ∧
      (a.Sized → c.Sized → a = c) ∧
      block = block' ∧ expiration = expiration' ∧ approved = approved'
  | _, _ => False

theorem length_flag (approved : Bool) : (flag approved).length = 1 := rfl

theorem flag_inj {a b : Bool} : flag a = flag b ↔ a = b := by
  cases a <;> cases b <;> decide

/-- An entity and an address in front of the same bytes. -/
theorem name_of_canonical_append_eq {e : Entity} {a : Address} {x y : Bytes}
    (h : e.canonical ++ x = a.bytes ++ y) : (Text.utf8 e.name).length = a.tag.toNat ∧
      (a.body <+: Text.utf8 e.name ∨ Text.utf8 e.name <+: a.body) := by
  obtain ⟨rest, -, hrest⟩ := e.canonical_eq_name_append
  rw [hrest, a.bytes_eq] at h
  simp only [List.append_assoc, List.cons_append] at h
  have htag : a.tag.toNat < 0xfd := by rcases a.tag_mem with h | h | h <;> rw [h] <;> decide
  obtain ⟨hlen, h⟩ := Chain.compact_append_eq_cons htag h
  have hname : Text.utf8 e.name <+: a.body ++ y := ⟨rest ++ x, h⟩
  exact ⟨hlen, List.prefix_or_prefix_of_prefix (List.prefix_append _ _) hname⟩

/-- An entity whose name covers an address takes 48 bytes or more. -/
theorem length_canonical_of_name {e : Entity} {a : Address}
    (h : (Text.utf8 e.name).length = a.tag.toNat) : 48 ≤ e.canonical.length := by
  obtain ⟨rest, hle, hrest⟩ := e.canonical_eq_name_append
  have hpos := List.length_pos_of_ne_nil (Chain.compact_ne_nil (Text.utf8 e.name).length)
  have htag : 32 ≤ a.tag.toNat := by rcases a.tag_mem with h | h | h <;> rw [h] <;> decide
  rw [hrest]
  simp only [List.length_append]
  omega

/-- A key takes 33 bytes and a key set one more than a multiple of 78. -/
theorem bytes_entityKey_ne_bytes_entityKeys {d e : Entity} (hd : d.Sized) (he : e.Sized)
    (key : PublicKey) (keys : KeySet) (block block' : Digest) (approved approved' : Bool) :
    (entityKey d key block approved).bytes ≠ (entityKeys e keys block' approved').bytes := by
  intro h
  simp only [bytes, List.append_assoc] at h
  obtain ⟨-, h⟩ := Entity.framed_canonical hd he h
  have hlen := congrArg List.length h
  simp only [List.length_append, Octets.length_eq, KeySet.length_bytes, length_flag] at hlen
  omega

/-- Behind the entity of an attestation stand 66 bytes or more, of which the attestation of an
address fills 41 by its own last fields. -/
theorem nameCovers_of_append_eq {e : Entity} {t : Statement} {x : Bytes}
    (ht : t.kind = .admin ∨ t.kind = .transfer) (hx : 66 ≤ x.length)
    (h : e.canonical ++ x = t.bytes) : NameCovers e t := by
  have hlen := congrArg List.length h
  cases t <;> simp only [kind, reduceCtorEq, or_self] at ht
  case admin a target block expiration approved =>
    simp only [bytes, List.append_assoc] at h
    obtain ⟨hname, hprefix⟩ := name_of_canonical_append_eq h
    have h48 := length_canonical_of_name hname
    refine ⟨a, by cases target <;> rfl, hname, hprefix, ?_⟩
    cases target with
    | entity d => exact .inl (List.cons_ne_nil _ _)
    | contract c =>
      by_contra hroom
      simp only [entities, addresses, List.mem_cons, List.not_mem_nil, or_false,
        exists_eq_or_imp, exists_eq_left, not_or] at hroom
      simp only [bytes, targetBytes, List.length_append, List.length_cons, Octets.length_eq,
        Bytes.length_littleEndian, length_flag, Address.length_bytes_of_not_isMulti hroom.2.1,
        Address.length_bytes_of_not_isMulti hroom.2.2] at hlen
      omega
  case transfer c code r block expiration approved =>
    simp only [bytes, List.append_assoc] at h
    obtain ⟨hname, hprefix⟩ := name_of_canonical_append_eq h
    have h48 := length_canonical_of_name hname
    refine ⟨c, rfl, hname, hprefix, ?_⟩
    by_contra hroom
    simp only [entities, addresses, List.mem_cons, List.not_mem_nil, or_false,
      exists_eq_or_imp, exists_eq_left, not_or] at hroom
    simp only [bytes, List.length_append, Octets.length_eq,
      Bytes.length_littleEndian, length_flag, Address.length_bytes_of_not_isMulti hroom.2.1,
      Address.length_bytes_of_not_isMulti hroom.2.2] at hlen
    omega

/-- Two addresses with a byte between them leave another remainder modulo twenty than two
addresses with a code between them. -/
theorem bytes_admin_contract_ne_bytes_transfer (a b c r : Address) (code : Octets 20)
    (block block' : Digest) (expiration expiration' : UInt64) (approved approved' : Bool) :
    (admin a (.contract b) block expiration approved).bytes ≠
      (transfer c code r block' expiration' approved').bytes := by
  intro h
  have hlen := congrArg List.length h
  simp only [bytes, targetBytes, List.length_append, List.length_cons, Octets.length_eq,
    Bytes.length_littleEndian, length_flag] at hlen
  have := a.length_bytes_mod
  have := b.length_bytes_mod
  have := c.length_bytes_mod
  have := r.length_bytes_mod
  omega

theorem confusable_of_bytes_admin_eq {a c r : Address} {e : Entity} {code : Octets 20}
    {block block' : Digest} {expiration expiration' : UInt64} {approved approved' : Bool}
    (h : (admin a (.entity e) block expiration approved).bytes =
      (transfer c code r block' expiration' approved').bytes) :
    Confusable (admin a (.entity e) block expiration approved)
      (transfer c code r block' expiration' approved') := by
  simp only [bytes, targetBytes] at h
  obtain ⟨h, happroved⟩ := List.append_inj' h rfl
  obtain ⟨h, hexpiration⟩ := List.append_inj' h (by simp)
  obtain ⟨h, hblock⟩ := List.append_inj' h (by simp [Octets.length_eq])
  refine ⟨h, fun ha hc => ?_, Octets.ext hblock, ?_, flag_inj.1 happroved⟩
  · rw [List.append_assoc] at h
    exact (Address.framed_bytes ha hc h).1
  · exact UInt64.toNat_inj.1
      ((Bytes.littleEndian_inj expiration.toNat_lt expiration'.toNat_lt).1 hexpiration)

/-- An entity in front of one attestation and an address in front of the other. -/
theorem confusable_of_entity_first {s t : Statement}
    (hs : s.kind = .entityKey ∨ s.kind = .entityKeys) (ht : t.kind = .admin ∨ t.kind = .transfer)
    (h : s.bytes = t.bytes) : Confusable s t := by
  cases s <;> simp only [kind, reduceCtorEq, or_self] at hs
  case entityKey e key block approved =>
    rw [bytes, List.append_assoc, List.append_assoc] at h
    refine nameCovers_of_append_eq ht ?_ h
    simp [Octets.length_eq, length_flag]
  case entityKeys e keys block approved =>
    rw [bytes, List.append_assoc, List.append_assoc] at h
    refine nameCovers_of_append_eq ht ?_ h
    have := List.length_pos_of_ne_nil keys.ne_nil
    simp only [List.length_append, KeySet.length_bytes, KeySet.size, Octets.length_eq, length_flag]
    omega

/-- Attestations of different kinds have different bytes unless one is laid over the other. -/
theorem confusable_of_bytes_eq {s t : Statement} (hs : s.IsAttestation) (ht : t.IsAttestation)
    (hentities : ∀ e ∈ s.entities ++ t.entities, e.Sized) (hkind : s.kind ≠ t.kind)
    (h : s.bytes = t.bytes) : Confusable s t ∨ Confusable t s := by
  cases s <;> cases t <;> simp [IsAttestation, kind] at hs ht hkind
  case entityKey.entityKeys d _ _ _ e _ _ _ =>
    exact absurd h (bytes_entityKey_ne_bytes_entityKeys (hentities d (by simp [entities]))
      (hentities e (by simp [entities])) _ _ _ _ _ _)
  case entityKeys.entityKey d _ _ _ e _ _ _ =>
    exact absurd h.symm (bytes_entityKey_ne_bytes_entityKeys (hentities e (by simp [entities]))
      (hentities d (by simp [entities])) _ _ _ _ _ _)
  case entityKey.admin | entityKey.transfer | entityKeys.admin | entityKeys.transfer =>
    exact .inl (confusable_of_entity_first (by simp [kind]) (by simp [kind]) h)
  case admin.entityKey | transfer.entityKey | admin.entityKeys | transfer.entityKeys =>
    exact .inr (confusable_of_entity_first (by simp [kind]) (by simp [kind]) h.symm)
  case admin.transfer a target _ _ _ c code r _ _ _ =>
    cases target with
    | entity e => exact .inl (confusable_of_bytes_admin_eq h)
    | contract b =>
      exact absurd h (bytes_admin_contract_ne_bytes_transfer a b c r code _ _ _ _ _ _)
  case transfer.admin c code r _ _ _ a target _ _ _ =>
    cases target with
    | entity e => exact .inr (confusable_of_bytes_admin_eq h.symm)
    | contract b =>
      exact absurd h.symm (bytes_admin_contract_ne_bytes_transfer a b c r code _ _ _ _ _ _)

/-! ### Attestations laid over each other -/

/-- An administrator for an entity of which only the name is known. -/
def trustAdmin : Statement :=
  admin (.keyHash (.replicate 20 7))
    (.entity { Entity.empty with name := "Federal Securities Trust" }) Digest.zero 9 true

/-- The name is cut at its second blank, which is also the first byte of an address. -/
def trustTransfer : Statement :=
  transfer (.keyHash (.replicate 20 7))
    ⟨0x00 :: 0x18 :: Text.utf8 "Federal Securities", by decide +kernel⟩
    (.keyHash ⟨Text.utf8 "Trust" ++ List.replicate 15 0, by decide +kernel⟩) Digest.zero 9 true

/-- The kinds of attestations are not told apart by their bytes, even where all lengths and
counts are small. -/
theorem not_forall_bytes_ne_of_kind_ne : ¬∀ s t : Statement, s.IsAttestation → t.IsAttestation →
    (∀ e ∈ s.entities ++ t.entities, e.Sized) → (∀ a ∈ s.addresses ++ t.addresses, a.Sized) →
    s.kind ≠ t.kind → s.bytes ≠ t.bytes := by
  intro h
  exact h trustAdmin trustTransfer (by decide) (by decide) (by decide +kernel) (by decide)
    (by decide) (by decide +kernel)

/-- A key whose bytes up to the last eight are a text. -/
def readableKey : PublicKey where
  x := 0x6b6b6b6b6b6b6b6b6b6b6b6b6b6b6b6b6b6b6b6b6b6b6b6b0000000000000000
  y := 0xf55f8ff266c85682c7aaf25ebee2743e90c10e6e0401e847b4edaded57ddc93e
  x_lt := by decide +kernel
  y_lt := by decide +kernel
  on_curve := by decide +kernel

/-- A text of blank characters. -/
def nuls (n : ℕ) : String := String.ofList (List.replicate n '\x00')

/-- The entity whose name starts with the hash of an address. -/
def coveringEntity : Entity :=
  { Entity.empty with
    name := "aaaaaaaaaaaaaaaaaaaa\x00\x1ebbbbbbbbbb"
    paymail := "ccccc" ++ nuls 14 ++ "\x19" }

/-- The entity that ends with the first bytes of a key. -/
def coveredEntity : Entity :=
  { Entity.empty with
    name := "bbbbbbbbbb" ++ nuls 14 ++ "\x14ccccc"
    paymail := "\x02kkkkkkkkkkkkkkkkkkkkkkkk" }

def coveringKey : Statement :=
  entityKey coveringEntity readableKey
    ⟨List.replicate 24 0x11 ++ Bytes.littleEndian 8 7, by decide⟩ true

def coveredAdmin : Statement :=
  admin (.keyHash (.replicate 20 0x61)) (.entity coveredEntity)
    ⟨List.replicate 8 0 ++ List.replicate 24 0x11, by decide⟩ 7 true

/-- A key of an entity laid over an administrator for another one. -/
theorem confusable_coveringKey : coveringKey.bytes = coveredAdmin.bytes ∧
    (Confusable coveringKey coveredAdmin ∨ Confusable coveredAdmin coveringKey) := by
  have hbytes : coveringKey.bytes = coveredAdmin.bytes := by decide +kernel
  exact ⟨hbytes, confusable_of_bytes_eq (by decide) (by decide) (by decide +kernel) (by decide)
    hbytes⟩

end Statement

end Attestor
