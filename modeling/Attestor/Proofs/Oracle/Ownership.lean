import Attestor.Proofs.Oracle.Concurrent

/-! To whom key sets belong while many requests are at work. A request looks up the owner of a key
set and the key set itself one after the other, and much may happen in between. Still the two
agree, since a key set is filed only once and its owner is never exchanged. A deletion is all that
can come between them, and from then on neither is found. -/

namespace Attestor.Oracle.Concurrent

variable {o : Oracle} {w : System} {s s' : Store} {past : List Event} {f : FiledKeys}

/-- What a look-up gets in a store that a ledger describes. -/
theorem Ledger.looked_up (h : Ledger past s) {q : Question} {a : q.Answer}
    (ha : Answered (fun _ => True) q s a s') (hf : f ∈ s.filed) {keys : KeySet}
    (hkeys : keys.bytes = f.keys.bytes) :
    (∀ b, (⟨q, a⟩ : Exchange) = ⟨.store (.findKeys keys), b⟩ → b = .ok f ∨
      b = .error (.notFound .keySet keys.text) ∧ .deleted f.user ∈ past) ∧
    ∀ b, (⟨q, a⟩ : Exchange) = ⟨.store (.findOwner keys), b⟩ → (∃ u, b = .ok u ∧ u.id = f.user) ∨
      b = .error (.notFound .user keys.text) ∧ .deleted f.user ∈ past := by
  constructor
  all_goals
    intro b heq
    cases heq
    cases ha
  · exact h.findKeys_cases hf hkeys
  · exact h.findOwner_cases hf hkeys

/-- Whatever requests are at work and however their questions come between each other: a key set
is filed at most once. From then on it is found as it was filed, and its owner for it, until the
owner has been deleted; then both are not found. What one request finds out about an owner and a
key set agrees. And nobody who has been deleted is found any more, nor are any of their key sets. -/
theorem ownership (h : Run o past w) :
    ((past.filterMap Event.filing?).map (·.keys.bytes)).Nodup ∧
    (∀ later i x earlier, past = later ++ .asked i x :: earlier →
      (∀ j f keys, .asked j ⟨.store (.fileKeys f), .ok ()⟩ ∈ earlier →
        keys.bytes = f.keys.bytes →
        (∀ a, x = ⟨.store (.findKeys keys), a⟩ → a = .ok f ∨
          a = .error (.notFound .keySet keys.text) ∧ .deleted f.user ∈ earlier) ∧
        ∀ a, x = ⟨.store (.findOwner keys), a⟩ → (∃ u, a = .ok u ∧ u.id = f.user) ∨
          a = .error (.notFound .user keys.text) ∧ .deleted f.user ∈ earlier) ∧
      ∀ id, .deleted id ∈ earlier → found? x ≠ some id) ∧
    ∀ i keys keys' u f, .asked i ⟨.store (.findOwner keys), .ok u⟩ ∈ past →
      .asked i ⟨.store (.findKeys keys'), .ok f⟩ ∈ past → f.user = u.id := by
  refine ⟨?_, fun later i x earlier hpast => ?_, fun i keys keys' u f howner hkeys => ?_⟩
  · rw [h.kept.ledger.filed_eq, List.map_reverse, List.nodup_reverse]
    exact h.kept.ledger.distinct
  · subst hpast
    obtain ⟨q, a⟩ := x
    obtain ⟨w₁, w₂, hearlier, hstep⟩ := h.split
    obtain ⟨r, told, next, -, ha, -⟩ := hstep.asked
    have hledger := hearlier.kept.ledger
    refine ⟨fun j f keys hf hkeys => hledger.looked_up ha (hledger.mem_filed hf) hkeys,
      fun id hid hfound => ?_⟩
    obtain ⟨u, hu⟩ := live_of_found ha hfound
    rw [hledger.live?_of_deleted hid] at hu
    cases hu
  · obtain ⟨c, hc, howner⟩ := h.kept.logged _ _ howner
    obtain ⟨c', hc', hkeys⟩ := h.kept.logged _ _ hkeys
    cases hc.symm.trans hc'
    obtain ⟨hsome, g, hg, huser⟩ : c.request.keySet? = some keys ∧
        ∃ g, w.store.filed? keys = some g ∧ g.user = u.id := h.kept.lasts i c hc _ howner
    obtain ⟨hsome', hf⟩ : c.request.keySet? = some keys' ∧ w.store.filed? keys' = some f :=
      h.kept.lasts i c hc _ hkeys
    cases hsome.symm.trans hsome'
    cases hg.symm.trans hf
    exact huser

/-! ### A founder who leaves between two look-ups -/

/-- A client asks, and no identifier of a user is issued. -/
theorem Run.asks {clients : List Client} (h : Run o past ⟨s, clients⟩) (i : ℕ) {r : Request}
    {told : List Exchange} {q : Question}
    {next : q.Answer → Dialogue Question Question.Answer (Except Error Reply)}
    (hi : clients[i]? = some ⟨r, told, .ask q next⟩) (a : q.Answer)
    (ha : Answered (fun _ => True) q s a s') (hfresh : r.registers = false ∨ q ≠ .freshId) :
    Run o (.asked i ⟨q, a⟩ :: past) ⟨s', clients.set i ⟨r, ⟨q, a⟩ :: told, next a⟩⟩ :=
  .step h (.ask hi ha fun id hr heq => by
    rcases hfresh with hnot | hq
    · rw [hr] at hnot
      cases hnot
    · exact absurd (congrArg Sigma.fst heq) hq)

/-- An approval of a transfer to the founder's key set. -/
def transfer : TransferRequest where
  contract := .keyHash (.replicate 20 1)
  instrument := ⟨"SHC", .replicate 20 2⟩
  keys := founderKeys
  index := 0
  expiration := none

/-- The founder registers and files a key set. Two transfers to it are looked into at the same
time, and the founder is deleted when only one of them has found the key set. -/
def departure : List Event :=
  [.asked 3 ⟨.store (.findKeys founderKeys), .error (.notFound .keySet founderKeys.text)⟩,
    .asked 3 ⟨.canceled, false⟩,
    .deleted founderId,
    .asked 2 ⟨.store (.findKeys founderKeys), .ok founderFiled⟩,
    .asked 2 ⟨.canceled, false⟩,
    .asked 3 ⟨.store (.findOwner founderKeys), .ok founderUser⟩,
    .asked 2 ⟨.store (.findOwner founderKeys), .ok founderUser⟩,
    .asked 3 ⟨.canceled, false⟩,
    .asked 2 ⟨.canceled, false⟩,
    .begun (.approveTransfer transfer),
    .begun (.approveTransfer transfer),
    .asked 1 ⟨.store (.fileKeys founderFiled), .ok ()⟩,
    .asked 1 ⟨.canceled, false⟩,
    .asked 1 ⟨.now, filingTime⟩,
    .asked 1 ⟨.freshId, .replicate 16 9⟩,
    .asked 1 ⟨.store (.findUser founderId), .ok founderUser⟩,
    .asked 1 ⟨.canceled, false⟩,
    .begun (.addKeySet founderId founderKeys 1 filingSignature),
    .asked 0 ⟨.store (.createUser founderUser), .ok ()⟩,
    .asked 0 ⟨.canceled, false⟩,
    .asked 0 ⟨.approve (.registration founderId founded founder), .ok .granted⟩,
    .asked 0 ⟨.canceled, false⟩,
    .asked 0 ⟨.freshId, founderId⟩,
    .asked 0 ⟨.now, foundingTime⟩,
    .begun (.register founded founder foundingSignature)]

theorem demandSignature_eq_pure {st : Statement} {signature : Bytes} {key : PublicKey}
    (h : PublicKey.verifies key st.digest signature = true) :
    demandSignature st signature key = pure () := if_pos h

/-- What is left of the founder's filing when the founder has been found. -/
def filing (signed : Action Unit) : Action FiledKeys := do
  signed
  let filed : FiledKeys :=
    ⟨← liftM (ask .freshId), founderId, founderKeys, 1, ← liftM (ask .now)⟩
  fileKeys filed
  return filed

theorem run_departure : ∃ w, Run foundingOracle departure w := by
  have h := Run.step .start
    (.begin (o := foundingOracle) ⟨.empty, []⟩ (.register founded founder foundingSignature))
  simp only [Request.action, register, demandSignature_eq_pure verifies_foundingSignature,
    List.nil_append] at h
  have h := h.asks 0 rfl foundingTime rfl (.inr nofun)
  have h := Run.step h (.ask (i := 0) (q := .freshId) (a := founderId) rfl rfl
    fun id _ _ c hc hissued => by
      cases List.mem_singleton.1 hc
      exact absurd hissued.2 (by simp))
  have h := h.asks 0 rfl false rfl (.inr nofun)
  have h := h.asks 0 rfl (.ok .granted) ⟨rfl, fun _ _ => trivial⟩ (.inr nofun)
  have h := h.asks 0 rfl false rfl (.inr nofun)
  have h := h.asks 0 rfl (.ok ()) rfl (.inr nofun)
  have h := Run.step h (.begin _ (.addKeySet founderId founderKeys 1 filingSignature))
  have h := h.asks 1 rfl false rfl (.inl rfl)
  have h := h.asks 1 rfl (.ok founderUser) rfl (.inl rfl)
  change Run _ _ ⟨_, List.set _ 1 ⟨_, _, (do return Reply.filed (← filing (demandSignature
    (.addKeySet founderId founderKeys 1) filingSignature founder)) : Action Reply).run⟩⟩ at h
  rw [demandSignature_eq_pure verifies_filingSignature] at h
  have h := h.asks 1 rfl (.replicate 16 9 : Octets 16) rfl (.inl rfl)
  have h := h.asks 1 rfl filingTime rfl (.inl rfl)
  have h := h.asks 1 rfl false rfl (.inl rfl)
  have h := h.asks 1 rfl (.ok ()) rfl (.inl rfl)
  have h := Run.step h (.begin _ (.approveTransfer transfer))
  have h := Run.step h (.begin _ (.approveTransfer transfer))
  have h := h.asks 2 rfl false rfl (.inl rfl)
  have h := h.asks 3 rfl false rfl (.inl rfl)
  have h := h.asks 2 rfl (.ok founderUser) rfl (.inl rfl)
  have h := h.asks 3 rfl (.ok founderUser) rfl (.inl rfl)
  have h := h.asks 2 rfl false rfl (.inl rfl)
  have h := h.asks 2 rfl (.ok founderFiled) rfl (.inl rfl)
  have h := Run.step h (.delete (show Store.user? _ founderId = some founderUser from rfl))
  have h := h.asks 3 rfl false rfl (.inl rfl)
  have h := h.asks 3 rfl (.error (.notFound .keySet founderKeys.text)) rfl (.inl rfl)
  exact ⟨_, h⟩

theorem ownership_of_departure : ∃ w, Run foundingOracle departure w ∧
    departure.filterMap Event.filing? = [founderFiled] ∧
    ((departure.filterMap Event.filing?).map (·.keys.bytes)).Nodup ∧
    .deleted founderId ∈ departure ∧ founderFiled.user = founderUser.id := by
  obtain ⟨w, h⟩ := run_departure
  obtain ⟨hnodup, -, hagree⟩ := ownership h
  have howner : .asked 2 ⟨.store (.findOwner founderKeys), .ok founderUser⟩ ∈ departure := by
    simp [departure]
  have hkeys : .asked 2 ⟨.store (.findKeys founderKeys), .ok founderFiled⟩ ∈ departure := by
    simp [departure]
  exact ⟨w, h, rfl, hnodup, by simp [departure], hagree 2 _ _ _ _ howner hkeys⟩

end Attestor.Oracle.Concurrent
