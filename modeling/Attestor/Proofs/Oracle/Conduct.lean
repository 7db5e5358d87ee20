import Attestor.Proofs.Oracle.Provenance

/-! What a request asks of the store, whoever answers and whatever others do in between. A request
knows only what it was told, so what it may ask is a matter of its own questions and answers so
far. A user is put in the store by a registration alone, once, and under the identifier that was
issued for it; a key set is filed only for a user who was found; and no request looks up any key
set but the one that it is about. -/

namespace Attestor.Oracle

/-- A question and its answer. -/
abbrev Exchange := (q : Question) × q.Answer

namespace Request

def registers : Request → Bool
  | register _ _ _ => true
  | _ => false

/-- The key set that a request for an attestation is about. -/
def keySet? : Request → Option KeySet
  | register _ _ _ | addKeySet _ _ _ _ | updateIdentity _ _ _ => none
  | verifyKey _ key _ => some (.single key)
  | verifyKeys _ keys => some keys
  | certifyAdmin r => some r.keys
  | approveTransfer r => some r.keys

/-- What a request may ask when it has been told so much, the latest first. -/
def May (r : Request) (told : List Exchange) : Question → Prop
  | .store (.createUser u) => r.registers = true ∧ u.deleted = false ∧ ⟨.freshId, u.id⟩ ∈ told ∧
    ∀ v a, ⟨.store (.createUser v), a⟩ ∉ told
  | .store (.fileKeys f) => ∃ u, ⟨.store (.findUser f.user), .ok u⟩ ∈ told
  | .store (.findOwner keys) | .store (.findKeys keys) => r.keySet? = some keys
  | _ => True

end Request

variable {α β : Type} {r : Request} {told : List Exchange}

/-- Whatever a dialogue is told, it asks nothing but what the request may ask by then, and its
result is right. -/
def Obeys (r : Request) (ok : α → List Exchange → Prop) :
    Dialogue Question Question.Answer α → List Exchange → Prop
  | .done a, told => ok a told
  | .halt, _ => True
  | .ask q next, told => r.May told q ∧ ∀ a, Obeys r ok (next a) (⟨q, a⟩ :: told)

theorem obeys_bind {d : Dialogue Question Question.Answer α}
    {f : α → Dialogue Question Question.Answer β} {ok : β → List Exchange → Prop}
    (h : Obeys r (fun a told => Obeys r ok (f a) told) d told) : Obeys r ok (d.bind f) told := by
  induction d generalizing told with
  | done a => exact h
  | halt => trivial
  | ask q next ih => exact ⟨h.1, fun a => ih a (h.2 a)⟩

theorem Obeys.mono {d : Dialogue Question Question.Answer α} {ok ok' : α → List Exchange → Prop}
    (h : Obeys r ok d told) (hok : ∀ a told, ok a told → ok' a told) : Obeys r ok' d told := by
  induction d generalizing told with
  | done a => exact hok a told h
  | halt => trivial
  | ask q next ih => exact ⟨h.1, fun a => ih a (h.2 a)⟩

/-- An action obeys, and its result is right if it has not failed. -/
def Conducts (r : Request) (x : Action α) (told : List Exchange)
    (ok : α → List Exchange → Prop) : Prop :=
  Obeys r (fun res told => ∀ a, res = .ok a → ok a told) x.run told

namespace Conducts

theorem pure {ok : α → List Exchange → Prop} {a : α} (h : ok a told) :
    Conducts r (pure a) told ok := fun b hb => by
  cases hb
  exact h

theorem throw {ok : α → List Exchange → Prop} {e : Error} : Conducts r (throw e) told ok :=
  fun _ hb => by cases hb

theorem bind {x : Action α} {f : α → Action β} {ok : β → List Exchange → Prop}
    (h : Conducts r x told fun a told => Conducts r (f a) told ok) :
    Conducts r (x >>= f) told ok := by
  refine obeys_bind (h.mono fun res told hres => ?_)
  cases res with
  | error e => exact fun b hb => by cases hb
  | ok a => exact hres a rfl

theorem map {x : Action α} {f : α → β} {ok : β → List Exchange → Prop}
    (h : Conducts r x told fun a => ok (f a)) : Conducts r (do return f (← x)) told ok :=
  bind (h.mono fun _ _ hres a ha => pure (hres a ha))

/-- A single question that the request may ask. -/
theorem question {q : Question} {x : q.Answer → Except Error α} {ok : α → List Exchange → Prop}
    (hmay : r.May told q) (hok : ∀ a b, x b = .ok a → ok a (⟨q, b⟩ :: told)) :
    Conducts r (.mk (.ask q fun b => .done (x b))) told ok :=
  ⟨hmay, fun b a hb => hok a b hb⟩

/-- A question that is asked if the request has not been canceled. -/
theorem call {operation : Operation} {q : Question} {x : q.Answer → Except Error α}
    {ok : α → List Exchange → Prop} (hmay : r.May (⟨.canceled, false⟩ :: told) q)
    (hok : ∀ a b, x b = .ok a → ok a (⟨q, b⟩ :: ⟨.canceled, false⟩ :: told)) :
    Conducts r (guarded (ask .canceled) operation (.ask q fun b => .done (x b))) told ok := by
  refine ⟨trivial, fun canceled => ?_⟩
  cases canceled with
  | true => exact fun b hb => by cases hb
  | false => exact question hmay hok

end Conducts

section Questions

variable {signature : Bytes} {key : PublicKey}

theorem conducts_demandSignature {st : Statement} {ok : Unit → List Exchange → Prop}
    (hok : ok () told) : Conducts r (demandSignature st signature key) told ok := by
  unfold demandSignature
  split_ifs
  · exact .pure hok
  · exact .throw

theorem conducts_findUser {id : UserId} {ok : User → List Exchange → Prop}
    (hok : ∀ u, ok u (⟨.store (.findUser id), .ok u⟩ :: ⟨.canceled, false⟩ :: told)) :
    Conducts r (findUser id) told ok :=
  .call (q := .store (.findUser id)) trivial fun u _ hb => hb ▸ hok u

theorem conducts_findOwner {keys : KeySet} {ok : User → List Exchange → Prop}
    (hkeys : r.keySet? = some keys) (hok : ∀ u told, ok u told) :
    Conducts r (findOwner keys) told ok :=
  .call (q := .store (.findOwner keys)) hkeys fun u _ _ => hok u _

theorem conducts_findKeys {keys : KeySet} {ok : FiledKeys → List Exchange → Prop}
    (hkeys : r.keySet? = some keys) (hok : ∀ f told, ok f told) :
    Conducts r (findKeys keys) told ok :=
  .call (q := .store (.findKeys keys)) hkeys fun f _ _ => hok f _

theorem conducts_ask (q : Question) (hmay : r.May told q) {ok : q.Answer → List Exchange → Prop}
    (hok : ∀ a, ok a (⟨q, a⟩ :: told)) : Conducts r (liftM (ask q)) told ok :=
  .question hmay fun a _ hb => Except.ok.inj hb ▸ hok a

theorem conducts_approval {operation : Operation} {h : Hook} {ok : Approval → List Exchange → Prop}
    (hok : ∀ a b, ok a (⟨.approve h, b⟩ :: ⟨.canceled, false⟩ :: told)) :
    Conducts r (approval operation h) told ok :=
  .call (q := .approve h) trivial fun a b _ => hok a b

theorem conducts_signingBlock {ok : Digest × UInt32 → List Exchange → Prop}
    (hok : ∀ b told, ok b told) : Conducts r signingBlock told ok :=
  .call (q := .signingBlock) trivial fun b _ _ => hok b _

theorem conducts_formation {address : Address} {ok : Formation → List Exchange → Prop}
    (hok : ∀ f told, ok f told) : Conducts r (formation address) told ok :=
  .question (q := .formation address) trivial fun f _ _ => hok f _

theorem conducts_expiry {asked : Option UInt64} {seconds : UInt64}
    {ok : UInt64 → List Exchange → Prop} (hok : ∀ t told, ok t told) :
    Conducts r (expiry asked seconds) told ok := by
  cases asked with
  | some t => exact .pure (hok t told)
  | none => exact .map (conducts_ask .now trivial fun t => hok _ _)

/-- What needs no question. -/
theorem conducts_mk {res : Except Error α} {ok : α → List Exchange → Prop} (hok : ∀ a, ok a told) :
    Conducts r (.mk (pure res)) told ok := fun a _ => hok a

theorem conducts_ofKey {res : Except Key.Error α} {ok : α → List Exchange → Prop}
    (hok : ∀ a, ok a told) : Conducts r (ofKey res) told ok := by
  cases res with
  | error e => exact .throw
  | ok a => exact .pure (hok a)

theorem conducts_judgeTarget {target : AdminTarget} {full : Entity} {note : String}
    {ok : Bool × String → List Exchange → Prop} (hok : ∀ j told, ok j told) :
    Conducts r (judgeTarget target full note) told ok := by
  cases target with
  | entity claimed => exact .pure (hok _ _)
  | contract a =>
    refine .bind (conducts_formation fun f told => ?_)
    cases f.issuer <;> exact .pure (hok _ _)

end Questions

/-! ### Requests -/

theorem conducts_register {entity : Entity} {key : PublicKey} {signature : Bytes}
    (hr : r.registers = true) :
    Conducts r (register entity key signature) [] fun _ _ => True := by
  refine .bind (conducts_demandSignature (.bind (conducts_ask .now trivial fun now =>
    .bind (conducts_ask .freshId trivial fun id => .bind (conducts_approval fun a b => ?_)))))
  split_ifs
  · exact .pure trivial
  · refine .bind (.call (q := .store (.createUser _)) ⟨hr, rfl, ?_, ?_⟩ fun _ _ _ => .pure trivial)
    · simp [User.new]
    · simp

theorem conducts_addKeySet {user : UserId} {keys : KeySet} {required : UInt32}
    {signature : Bytes} :
    Conducts r (addKeySet user keys required signature) [] fun _ _ => True := by
  unfold addKeySet
  split_ifs
  · exact .bind .throw
  · refine .bind (conducts_findUser fun u => .bind (conducts_demandSignature
      (.bind (conducts_ask .freshId trivial fun id => .bind (conducts_ask .now trivial fun now =>
        .bind (.call (q := .store (.fileKeys _)) ⟨u, ?_⟩ fun _ _ _ => .pure trivial))))))
    simp

theorem conducts_updateIdentity {user : UserId} {entity : Entity} {signature : Bytes} :
    Conducts r (updateIdentity user entity signature) [] fun _ _ => True := by
  refine .bind (conducts_findUser fun u => .bind (conducts_demandSignature
    (.bind (conducts_approval fun a b => ?_))))
  split_ifs
  · exact .pure trivial
  · exact .bind (conducts_ask .now trivial fun now =>
      .bind (.call (q := .store (.updateUser _)) trivial fun _ _ _ => .pure trivial))

theorem conducts_verifyKey {entity : Entity} {key : ExtendedKey} {index : UInt32}
    (hr : r.keySet? = some (.single key)) :
    Conducts r (verifyKey entity key index) [] fun _ _ => True := by
  refine .bind (conducts_findOwner hr fun u told => .bind (conducts_mk fun full =>
    .bind (conducts_approval fun a b => ?_)))
  split_ifs
  · exact .pure trivial
  · exact .bind (conducts_ofKey fun child => .bind (conducts_signingBlock fun b told =>
      .pure trivial))

theorem conducts_verifyKeys {entity : Entity} {keys : KeySet} (hr : r.keySet? = some keys) :
    Conducts r (verifyKeys entity keys) [] fun _ _ => True := by
  refine .bind (conducts_findOwner hr fun u told => .bind (conducts_mk fun full =>
    .bind (conducts_approval fun a b => ?_)))
  split_ifs
  · exact .pure trivial
  · exact .bind (conducts_signingBlock fun b told => .pure trivial)

theorem conducts_certifyAdmin {o : Oracle} {a : AdminRequest} (hr : r.keySet? = some a.keys) :
    Conducts r (o.certifyAdmin a) [] fun _ _ => True := by
  refine .bind (conducts_findOwner hr fun u told => .bind (conducts_mk fun full =>
    .bind (conducts_findKeys hr fun f told => .bind (conducts_approval fun a b => ?_))))
  split_ifs
  · exact .pure trivial
  · exact .bind (conducts_ofKey fun address => .bind (conducts_judgeTarget fun j told =>
      .bind (conducts_signingBlock fun b told => .bind (conducts_expiry fun t told =>
        .pure trivial))))

theorem conducts_approveTransfer {o : Oracle} {t : TransferRequest}
    (hr : r.keySet? = some t.keys) :
    Conducts r (o.approveTransfer t) [] fun _ _ => True := by
  refine .bind (conducts_findOwner hr fun u told => .bind (conducts_findKeys hr fun f told =>
    .bind (conducts_approval fun a b => ?_)))
  split_ifs
  · exact .pure trivial
  · exact .bind (conducts_signingBlock fun b told => .bind (conducts_ofKey fun address =>
      .bind (conducts_expiry fun t told => .pure trivial)))

/-- Every request obeys, from the first question on. -/
theorem Request.obeys (o : Oracle) (r : Request) :
    Obeys r (fun _ _ => True) (r.action o).run [] := by
  have hconducts : Conducts r (r.action o) [] fun _ _ => True := by
    cases r with
    | register entity key signature => exact .map (conducts_register rfl)
    | addKeySet user keys required signature => exact .map conducts_addKeySet
    | updateIdentity user entity signature => exact .map conducts_updateIdentity
    | verifyKey entity key index => exact .map (conducts_verifyKey rfl)
    | verifyKeys entity keys => exact .map (conducts_verifyKeys rfl)
    | certifyAdmin a => exact .map (conducts_certifyAdmin rfl)
    | approveTransfer t => exact .map (conducts_approveTransfer rfl)
  exact hconducts.mono fun _ _ _ => trivial

end Attestor.Oracle
