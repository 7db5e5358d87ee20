import Attestor.Proofs.Chain.Script
import Attestor.Proofs.Formations.Observe
import Attestor.Proofs.Key.Bytes

/-! The address that formations are filed under, next to the one that their transaction spends
from. An input whose script pushes a signature and a key can spend from the hash of the pushed
bytes and from no other. The formations are filed under the hash of the compressed bytes of the
key, whatever bytes it was pushed in, and all of them are found there. The two are one address
if the key was pushed compressed. If it was pushed with both coordinates, the formations are
filed under an address that its signer did not use. -/

namespace Attestor

open Service (Local)

theorem Script.IsPushes.eq {items others : List Bytes} {script : Bytes}
    (h : IsPushes items script) (h' : IsPushes others script) : items = others :=
  Option.some.inj ((pushes_eq_some.2 h).symm.trans (pushes_eq_some.2 h'))

theorem Script.IsPushes.ne_nil {item : Bytes} {items : List Bytes} {script : Bytes}
    (h : IsPushes (item :: items) script) : script ≠ [] := by
  obtain ⟨parts, hparts, rfl⟩ := h
  cases hparts with
  | cons hpart _ => exact List.append_ne_nil_of_left_ne_nil hpart.ne_nil _

namespace Address

/-- What the address of a key asks of a script that spends from it, besides the signature: its
last push hashes to the hash of the address. -/
def Admits (a : Address) (script : Bytes) : Prop :=
  ∃ items key, Script.IsPushes (items ++ [key]) script ∧ a = .keyHash (hash160 key)

theorem admits_iff {a : Address} {signature key script : Bytes}
    (h : Script.IsPushes [signature, key] script) :
    a.Admits script ↔ a = .keyHash (hash160 key) := by
  constructor
  · rintro ⟨items, last, hlast, rfl⟩
    have hsplit : [signature] ++ [key] = items ++ [last] := h.eq hlast
    obtain ⟨-, hkey⟩ := List.append_inj' hsplit rfl
    cases hkey
    rfl
  · rintro rfl
    exact ⟨[signature], key, h, rfl⟩

end Address

theorem Transaction.signer?_of_pushes {t : Transaction} {input : Input} {signature key : Bytes}
    {publicKey : PublicKey} (hinput : t.inputs.head? = some input)
    (hscript : Script.IsPushes [signature, key] input.script)
    (hkey : PublicKey.ofBytes? key = some publicKey) :
    t.signer? = some (.ofKey publicKey) := by
  have hne : input.script.isEmpty = false := List.isEmpty_eq_false_iff.2 hscript.ne_nil
  have hbytes : keyBytes? input = some key := by
    rw [keyBytes?, hne, if_neg Bool.false_ne_true, Script.pushes_eq_some.2 hscript]
  simp only [signer?, hinput, hbytes, hkey, Option.bind_eq_bind, Option.bind_some,
    Option.pure_def]

namespace Formations

/-- The transaction is filed under the address: it counts as the signer, the latest formation
is found there after the transaction was observed, and no other record changes. -/
structure FiledUnder (s : Formations) (t : Transaction) (a : Address) : Prop where
  signer : t.signer? = some a
  filed : ∀ l : Local, l.Steady → ∃ n l', exec (s.observe t) l = (some (.ok n), l') ∧
    (∀ c, Latest (s.candidates (l.record a) (s.carried t.outputs)) c →
      l'.record a = some c.script ∧ exec (s.get a) l' = (some (.ok c.formation), l')) ∧
    (s.carried t.outputs ≠ [] →
      ∃ c, Latest (s.candidates (l.record a) (s.carried t.outputs)) c) ∧
    ∀ b ≠ a, l'.record b = l.record b

variable {s : Formations} {t : Transaction} {a b : Address}

theorem filings_of_signer? (h : t.signer? = some a) :
    s.filings a [t] = s.carried t.outputs := by
  simp [filings, h]

theorem filings_of_signer?_ne (h : t.signer? = some a) (hne : b ≠ a) : s.filings b [t] = [] := by
  simp [filings, h, hne.symm]

theorem filedUnder_of_signer? (h : t.signer? = some a) : s.FiledUnder t a := by
  refine ⟨h, fun l hl => ?_⟩
  obtain ⟨n, l', hexec, hl', hrecord⟩ := exec_observe (s := s) t hl
  have hkept : KeepsLatest s a [t] l l' := keepsLatest_of_record hl' (hrecord a)
  refine ⟨n, l', hexec, ?_, fun hne => ?_, fun b hb => ?_⟩
  · rw [← filings_of_signer? h]
    exact hkept.latest
  · rw [← filings_of_signer? h] at hne ⊢
    exact hkept.exists_latest fun hnil => hne (List.append_eq_nil_iff.1 hnil).2
  · rw [hrecord b, filings_of_signer?_ne h hb, List.foldl_nil]

/-- Observing a transaction files its formations under the compressed form of the key that its
first input pushes. This is the only address from which the input can spend exactly when the
pushed bytes and the compressed ones have one hash, as they do if 33 bytes were pushed. -/
theorem filedUnder_admitting_iff {input : Input} {signature key : Bytes} {publicKey : PublicKey}
    (hinput : t.inputs.head? = some input)
    (hscript : Script.IsPushes [signature, key] input.script)
    (hkey : PublicKey.ofBytes? key = some publicKey) :
    s.FiledUnder t (.ofKey publicKey) ∧
    (∀ a : Address, a.Admits input.script ↔ a = .keyHash (hash160 key)) ∧
    (∀ a : Address, a.Admits input.script →
      (s.FiledUnder t a ↔ hash160 key = PublicKey.hash publicKey)) ∧
    (key.length = 33 → hash160 key = PublicKey.hash publicKey) := by
  have hsigner := Transaction.signer?_of_pushes hinput hscript hkey
  refine ⟨filedUnder_of_signer? hsigner, fun a => Address.admits_iff hscript, fun a ha => ?_,
    fun hlen => ?_⟩
  · obtain rfl := (Address.admits_iff hscript).1 ha
    constructor
    · rintro ⟨hfiled, -⟩
      exact Address.keyHash.inj (Option.some.inj (hfiled.symm.trans hsigner))
    · intro hhash
      rw [hhash]
      exact filedUnder_of_signer? hsigner
  · rw [PublicKey.eq_bytes_of_ofBytes? hkey hlen]
    rfl

/-- An offer whose key is pushed compressed is filed under the address it spends from. -/
theorem filedUnder_offering : ∃ input signature,
    (offering [10]).inputs.head? = some input ∧
    Script.IsPushes [signature, (PublicKey.bytes offerKey).toList] input.script ∧
    PublicKey.ofBytes? (PublicKey.bytes offerKey).toList = some offerKey ∧
    FiledUnder ⟨.testnet, true⟩ (offering [10])
      (.keyHash (hash160 (PublicKey.bytes offerKey).toList)) := by
  have hpushes : Script.IsPushes [[0x30], (PublicKey.bytes offerKey).toList]
      ([0x01, 0x30, 0x21] ++ (PublicKey.bytes offerKey).toList) :=
    Script.pushes_eq_some.1 (by decide +kernel)
  have hkey : PublicKey.ofBytes? (PublicKey.bytes offerKey).toList = some offerKey := by
    decide +kernel
  obtain ⟨-, hadmits, hfiled, hcompressed⟩ := filedUnder_admitting_iff (s := ⟨.testnet, true⟩)
    (t := offering [10]) rfl hpushes hkey
  exact ⟨_, _, rfl, hpushes, hkey,
    (hfiled _ ((hadmits _).2 rfl)).2 (hcompressed (PublicKey.bytes offerKey).length_eq)⟩

/-- Both coordinates of the key that signs the offers. -/
def offerCoordinates : Bytes :=
  0x04 :: (Bytes.bigEndian 32 offerKey.x ++ Bytes.bigEndian 32 offerKey.y)

/-- An offer whose key is pushed with both coordinates. -/
def plainOffering : Transaction :=
  { offering [10] with inputs := [⟨Digest.zero, 0, [0x01, 0x30, 0x41] ++ offerCoordinates, 0, []⟩] }

/-- The address that an input can spend from need not be the one that formations are filed
under. -/
theorem not_forall_filedUnder_admitting : ¬ ∀ (s : Formations) (t : Transaction) (input : Input)
    (signature key : Bytes) (publicKey : PublicKey), t.inputs.head? = some input →
    Script.IsPushes [signature, key] input.script → PublicKey.ofBytes? key = some publicKey →
    t.signer? = some (.keyHash (hash160 key)) ∧ s.FiledUnder t (.keyHash (hash160 key)) := by
  intro h
  have hpushes : Script.IsPushes [[0x30], offerCoordinates]
      ([0x01, 0x30, 0x41] ++ offerCoordinates) :=
    Script.pushes_eq_some.1 (by decide +kernel)
  have hkey : PublicKey.ofBytes? offerCoordinates = some offerKey := by decide +kernel
  have hne : hash160 offerCoordinates ≠ PublicKey.hash offerKey := by decide +kernel
  have hsigner : plainOffering.signer? = some (.ofKey offerKey) :=
    Transaction.signer?_of_pushes rfl hpushes hkey
  have hspent := (h ⟨.testnet, true⟩ plainOffering _ _ _ _ rfl hpushes hkey).1
  exact hne (Address.keyHash.inj (Option.some.inj (hspent.symm.trans hsigner)))

end Formations

end Attestor
