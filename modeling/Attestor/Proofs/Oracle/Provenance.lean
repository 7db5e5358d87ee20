import Attestor.Proofs.Oracle.Requests

/-! Where everything in the store comes from. Requests are served one after another on a store
that was empty, and users may be deleted in between. Whatever the requests were, however others
answered and wherever a request was given up, each user's entity is the one that was last
accepted, under a signature by the key that was registered, each key set was filed under a
signature by its owner's key, and nothing that was accepted is missing. So no request for an
attestation fails on account of the store. -/

namespace Attestor.Oracle

inductive Request where
  | register (entity : Entity) (key : PublicKey) (signature : Bytes)
  | addKeySet (user : UserId) (keys : KeySet) (required : UInt32) (signature : Bytes)
  | updateIdentity (user : UserId) (entity : Entity) (signature : Bytes)
  | verifyKey (entity : Entity) (key : ExtendedKey) (index : UInt32)
  | verifyKeys (entity : Entity) (keys : KeySet)
  | certifyAdmin (r : AdminRequest)
  | approveTransfer (r : TransferRequest)

inductive Reply where
  | registered (d : Decision UserId)
  | filed (f : FiledKeys)
  | updated (d : Decision Unit)
  | attested (a : Attestation)

namespace Request

def action (o : Oracle) : Request → Action Reply
  | register entity key signature => do
    return .registered (← Oracle.register entity key signature)
  | addKeySet user keys required signature => do
    return .filed (← Oracle.addKeySet user keys required signature)
  | updateIdentity user entity signature => do
    return .updated (← Oracle.updateIdentity user entity signature)
  | verifyKey entity key index => do return .attested (← Oracle.verifyKey entity key index)
  | verifyKeys entity keys => do return .attested (← Oracle.verifyKeys entity keys)
  | certifyAdmin r => do return .attested (← o.certifyAdmin r)
  | approveTransfer r => do return .attested (← o.approveTransfer r)

/-- Whether the request is one for an attestation. -/
def isAttestation : Request → Bool
  | register _ _ _ | addKeySet _ _ _ _ | updateIdentity _ _ _ => false
  | verifyKey _ _ _ | verifyKeys _ _ | certifyAdmin _ | approveTransfer _ => true

end Request

inductive Event where
  | deleted (id : UserId)
  /-- There is no reply to a request that was given up. -/
  | served (r : Request) (reply : Option (Except Error Reply))

/-- What a user was accepted as, and the signature that came with it. -/
structure Declaration where
  user : UserId
  entity : Entity
  statement : Statement
  signature : Bytes

/-- What an event declares about a user, if it is a request that was accepted. -/
def Event.declaration? : Event → Option Declaration
  | served (.register entity _ signature) (some (.ok (.registered (.accepted id)))) =>
    some ⟨id, entity, .registration entity, signature⟩
  | served (.updateIdentity user entity signature) (some (.ok (.updated (.accepted ())))) =>
    some ⟨user, entity, .updateIdentity user entity, signature⟩
  | _ => none

/-- The key set that an event files, if it is a request that was accepted. -/
def Event.filing? : Event → Option FiledKeys
  | served _ (some (.ok (.filed f))) => some f
  | _ => none

/-- One event. Others than the store may answer in any way, but the identifier of a new user is
one that no user has. -/
inductive Step (o : Oracle) : Store → Event → Store → Prop
  | delete (s : Store) (id : UserId) : Step o s (.deleted id) (s.delete id)
  | serve {s s' : Store} {r : Request} {reply : Option (Except Error Reply)}
    (h : Serves (fun _ => True) (r.action o).run s reply s')
    (hfresh : ∀ id, reply = some (.ok (.registered (.accepted id))) → s.user? id = none) :
    Step o s (.served r reply) s'

/-- Events one after another, the newest first. -/
inductive Run (o : Oracle) (start : Store) : List Event → Store → Prop
  | start : Run o start [] start
  | step {past : List Event} {s s' : Store} {e : Event} (h : Run o start past s)
    (he : Step o s e s') : Run o start (e :: past) s'

variable {E : Error → Prop} {o : Oracle} {s s' start : Store} {e : Event}
  {past future : List Event}

/-! ### What one event can do -/

/-- The ways in which an event can change the store. -/
inductive Effect (s : Store) : Event → Store → Prop
  | nothing {e : Event} (hdeclaration : e.declaration? = none) (hfiling : e.filing? = none) :
    Effect s e s
  | deleted (id : UserId) : Effect s (.deleted id) (s.delete id)
  | registered {entity : Entity} {key : PublicKey} {signature : Bytes} {id : UserId} {now : Time}
    (hverifies : PublicKey.verifies key (Statement.registration entity).digest signature = true)
    (hfresh : s.user? id = none) :
    Effect s (.served (.register entity key signature) (some (.ok (.registered (.accepted id)))))
      (s.createUser (.new id entity key now))
  | filed {signature : Bytes} {f : FiledKeys} {u : User}
    (hbound : 0 < f.required.toNat ∧ f.required.toNat ≤ f.keys.size)
    (hu : s.live? f.user = some u)
    (hverifies : PublicKey.verifies u.publicKey
      (Statement.addKeySet f.user f.keys f.required).digest signature = true)
    (hnew : s.filed? f.keys = none) :
    Effect s (.served (.addKeySet f.user f.keys f.required signature) (some (.ok (.filed f))))
      { s with filed := s.filed ++ [f] }
  | updated {user : UserId} {entity : Entity} {signature : Bytes} {u : User} {now : Time}
    (hu : s.live? user = some u)
    (hverifies : PublicKey.verifies u.publicKey
      (Statement.updateIdentity user entity).digest signature = true) :
    Effect s (.served (.updateIdentity user entity signature)
        (some (.ok (.updated (.accepted ())))))
      (s.createUser (u.setEntity entity now))

theorem ensures_attestation (hs : Usable s) {r : Request}
    (hr : r.isAttestation = true) :
    Ensures E (r.action o) s (Blameless E s) fun reply s' =>
      s' = s ∧ ∃ a, reply = .attested a := by
  have hattested : ∀ {x : Action Attestation},
      Ensures E x s (Blameless E s) (fun _ s' => s' = s) →
      Ensures E (do return Reply.attested (← x)) s (Blameless E s) fun reply s' =>
        s' = s ∧ ∃ a, reply = .attested a :=
    fun hx => .map (hx.mono (fun _ _ h => h) fun a _ h => ⟨h, a, rfl⟩)
  cases r with
  | register | addKeySet | updateIdentity => cases hr
  | verifyKey entity key index => exact hattested (ensures_verifyKey hs entity key index)
  | verifyKeys entity keys => exact hattested (ensures_verifyKeys hs entity keys)
  | certifyAdmin r => exact hattested (ensures_certifyAdmin hs o r)
  | approveTransfer r => exact hattested (ensures_approveTransfer hs o r)

theorem ensures_effect (hs : Usable s) (r : Request) :
    Ensures (fun _ => True) (r.action o) s (Unchanged s) fun reply s' =>
      (∀ id, reply = .registered (.accepted id) → s.user? id = none) →
        Effect s (.served r (some (.ok reply))) s' := by
  cases r with
  | register entity key signature =>
    refine .map ((ensures_register entity key signature).mono (fun _ _ h => h)
      fun d s' h hfresh => ?_)
    obtain ⟨id, now, rfl, hverifies, rfl⟩ | ⟨⟨m, rfl⟩, rfl⟩ := h
    · exact .registered hverifies (hfresh id rfl)
    · exact .nothing rfl rfl
  | addKeySet user keys required signature =>
    refine .map ((ensures_addKeySet user keys required signature).mono (fun _ _ h => h)
      fun f s' h _ => ?_)
    obtain ⟨⟨rfl, rfl, rfl⟩, hbound, ⟨u, hu, hverifies⟩, hnew, rfl⟩ := h
    exact .filed hbound hu hverifies hnew
  | updateIdentity user entity signature =>
    refine .map ((ensures_updateIdentity user entity signature).mono (fun _ _ h => h)
      fun d s' h _ => ?_)
    obtain ⟨rfl, u, now, hu, hverifies, rfl⟩ | ⟨⟨m, rfl⟩, rfl⟩ := h
    · exact .updated hu hverifies
    · exact .nothing rfl rfl
  | verifyKey | verifyKeys | certifyAdmin | approveTransfer =>
    refine (ensures_attestation hs rfl).mono (fun _ _ h => h.1) fun reply s' h _ => ?_
    obtain ⟨rfl, a, rfl⟩ := h
    exact .nothing rfl rfl

theorem Step.effect (hs : Usable s) (h : Step o s e s') : Effect s e s' := by
  cases h with
  | delete id => exact .deleted id
  | @serve _ r reply h hfresh =>
    have hmeets := ensures_effect hs r reply s' h
    match reply, hmeets with
    | none, h | some (.error _), h =>
      cases h
      exact .nothing (by cases r <;> rfl) rfl
    | some (.ok reply), h => exact h fun id hid => hfresh id (by rw [hid])

/-- Nobody is taken out of the store, and nobody's key is exchanged. -/
theorem Effect.keeps_user (h : Effect s e s') {id : UserId} {u : User} (hu : s.user? id = some u) :
    ∃ u', s'.user? id = some u' ∧ u'.id = u.id ∧ u'.publicKey = u.publicKey := by
  cases h with
  | nothing | filed => exact ⟨u, hu, rfl, rfl⟩
  | registered hverifies hfresh =>
    exact Store.user?_of_admits (fun v hv => absurd (hfresh.symm.trans hv) nofun) hu
  | updated hv =>
    exact Store.user?_of_admits (Store.admits_of_user? (Store.live?_eq_some.1 hv).1 rfl rfl) hu
  | deleted i =>
    rcases s.delete_cases i with hi | ⟨v, hv, hi⟩
    · exact ⟨u, by rw [hi, hu], rfl, rfl⟩
    · rw [hi]
      exact Store.user?_of_admits (Store.admits_of_user? hv rfl rfl) hu

theorem Effect.keeps_filed (h : Effect s e s') {f : FiledKeys} (hf : f ∈ s.filed) :
    f ∈ s'.filed := by
  cases h with
  | nothing | registered | updated => exact hf
  | filed => exact List.mem_append_left _ hf
  | deleted i =>
    rcases s.delete_cases i with hi | ⟨v, -, hi⟩
    all_goals
      rw [hi]
      exact hf

/-! ### What all events together leave -/

/-- What was last declared about a user. -/
def lastDeclaration? (past : List Event) (id : UserId) : Option Declaration :=
  (past.filterMap Event.declaration?).find? (·.user = id)

theorem lastDeclaration?_cons {id : UserId} (h : ∀ d, e.declaration? = some d → d.user ≠ id) :
    lastDeclaration? (e :: past) id = lastDeclaration? past id := by
  unfold lastDeclaration?
  cases hd : e.declaration? with
  | none => rw [List.filterMap_cons_none hd]
  | some d =>
    rw [List.filterMap_cons_some hd, List.find?_cons_of_neg]
    simpa using h d hd

theorem lastDeclaration?_cons_self {d : Declaration} {id : UserId}
    (h : e.declaration? = some d) (hid : d.user = id) :
    lastDeclaration? (e :: past) id = some d := by
  unfold lastDeclaration?
  rw [List.filterMap_cons_some h, List.find?_cons_of_pos (by simpa using hid)]

/-- A user is as was accepted: registered under a signature by the key, and with the entity that
was last declared, under another one by the same key. -/
structure Vouched (past : List Event) (u : User) : Prop where
  registered : ∃ entity signature,
    .served (.register entity u.publicKey signature)
        (some (.ok (.registered (.accepted u.id)))) ∈ past ∧
      PublicKey.verifies u.publicKey (Statement.registration entity).digest signature = true
  declared : ∃ d, lastDeclaration? past u.id = some d ∧ Entity.ofBytes u.entity = .ok d.entity ∧
    PublicKey.verifies u.publicKey d.statement.digest d.signature = true

/-- A key set has an owner who signed for it, and is large enough. -/
structure Backed (past : List Event) (s : Store) (f : FiledKeys) : Prop where
  bounded : 0 < f.required.toNat ∧ f.required.toNat ≤ f.keys.size
  signed : ∃ u signature, s.user? f.user = some u ∧
    .served (.addKeySet f.user f.keys f.required signature) (some (.ok (.filed f))) ∈ past ∧
      PublicKey.verifies u.publicKey
        (Statement.addKeySet f.user f.keys f.required).digest signature = true

/-- Users have identifiers of their own and key sets are filed under their own bytes; all of it
was accepted, and signed by the key that answers for it. -/
structure Authorized (past : List Event) (s : Store) : Prop where
  distinct : (s.users.map User.id).Nodup
  users : ∀ u ∈ s.users, Vouched past u
  filed : ∀ f ∈ s.filed, s.filed? f.keys = some f ∧ Backed past s f

/-- Nothing that was accepted is missing from the store. -/
structure Recorded (past : List Event) (s : Store) : Prop where
  users : ∀ e ∈ past, ∀ d, e.declaration? = some d → ∃ u, s.user? d.user = some u
  filed : ∀ e ∈ past, ∀ f, e.filing? = some f → f ∈ s.filed

theorem Vouched.later {u : User} (h : Vouched past u)
    (he : ∀ d, e.declaration? = some d → d.user ≠ u.id) : Vouched (e :: past) u := by
  obtain ⟨⟨entity, signature, hmem, hverifies⟩, hdeclared⟩ := h
  refine ⟨⟨entity, signature, List.mem_cons_of_mem e hmem, hverifies⟩, ?_⟩
  rwa [lastDeclaration?_cons he]

theorem Vouched.later_of_none {u : User} (h : Vouched past u) (he : e.declaration? = none) :
    Vouched (e :: past) u :=
  h.later fun _ hd => absurd (he.symm.trans hd) nofun

/-- Whoever was registered is vouched for by what has just been declared. -/
theorem Vouched.of_declaration {u : User} {entity : Entity} {st : Statement} {signature : Bytes}
    (hd : e.declaration? = some ⟨u.id, entity, st, signature⟩) (hentity : u.entity = entity.bytes)
    (hverifies : PublicKey.verifies u.publicKey st.digest signature = true)
    (hregistered : ∃ entity signature, .served (.register entity u.publicKey signature)
        (some (.ok (.registered (.accepted u.id)))) ∈ e :: past ∧
      PublicKey.verifies u.publicKey (Statement.registration entity).digest signature = true) :
    Vouched (e :: past) u := by
  refine ⟨hregistered, _, lastDeclaration?_cons_self hd rfl, ?_, hverifies⟩
  rw [hentity]
  exact entity.ofBytes_bytes

theorem Backed.later {f : FiledKeys} (h : Backed past s f) (he : Effect s e s') :
    Backed (e :: past) s' f := by
  obtain ⟨hbounded, u, signature, hu, hmem, hverifies⟩ := h
  obtain ⟨u', hu', -, hkey⟩ := he.keeps_user hu
  exact ⟨hbounded, u', signature, hu', List.mem_cons_of_mem e hmem, hkey ▸ hverifies⟩

namespace Authorized

theorem empty : Authorized [] .empty where
  distinct := List.nodup_nil
  users := nofun
  filed := nofun

theorem usable (h : Authorized past s) : Usable s where
  readable u hu :=
    let ⟨d, _, hread, _⟩ := (h.users u hu).declared
    ⟨d.entity, hread⟩
  bounded f hf := (h.filed f hf).2.bounded

/-- It is enough to vouch for the one user who is put in the store. -/
theorem put (h : Authorized past s) {u : User} (he : Effect s e (s.createUser u))
    (hu : Vouched (e :: past) u) (hother : ∀ d, e.declaration? = some d → d.user = u.id) :
    Authorized (e :: past) (s.createUser u) where
  distinct := Store.nodup_put h.distinct u
  users v hv := by
    rcases Store.mem_put_cases h.distinct hv with rfl | ⟨hv, hid⟩
    · exact hu
    · exact (h.users v hv).later fun d hd heq => hid (heq.symm.trans (hother d hd))
  filed f hf := ⟨(h.filed f hf).1, (h.filed f hf).2.later he⟩

/-- It is enough to vouch for the key sets when nothing is declared about users. -/
theorem file (h : Authorized past s) (hnone : e.declaration? = none) (husers : s'.users = s.users)
    (hfiled : ∀ f ∈ s'.filed, s'.filed? f.keys = some f ∧ Backed (e :: past) s' f) :
    Authorized (e :: past) s' where
  distinct := husers ▸ h.distinct
  users u hu := (h.users u (husers ▸ hu)).later_of_none hnone
  filed := hfiled

theorem step (h : Authorized past s) (he : Effect s e s') : Authorized (e :: past) s' := by
  cases he with
  | nothing hnone hfiling =>
    have he : Effect s e s := .nothing hnone hfiling
    exact h.file hnone rfl fun f hf => ⟨(h.filed f hf).1, (h.filed f hf).2.later he⟩
  | deleted id =>
    have hnone : Event.declaration? (.deleted id) = none := rfl
    rcases s.delete_cases id with hs | ⟨u, hu, hs⟩
    · have he : Effect s (.deleted id) s := .nothing hnone rfl
      rw [hs]
      exact h.file hnone rfl fun f hf => ⟨(h.filed f hf).1, (h.filed f hf).2.later he⟩
    · -- the mark touches nothing that the user is vouched for by
      obtain ⟨hregistered, hdeclared⟩ :=
        (h.users u (Store.user?_eq_some hu).1).later_of_none hnone
      rw [hs]
      exact h.put (hs ▸ .deleted id) ⟨hregistered, hdeclared⟩
        fun d hd => absurd (hnone.symm.trans hd) nofun
  | @registered entity key signature id now hverifies hfresh =>
    have hdeclared : Event.declaration? (.served (.register entity key signature)
        (some (.ok (.registered (.accepted id))))) =
      some ⟨id, entity, .registration entity, signature⟩ := rfl
    refine h.put (.registered hverifies hfresh) (.of_declaration hdeclared rfl hverifies
      ⟨entity, signature, List.mem_cons_self, hverifies⟩) fun d hd => ?_
    cases hdeclared.symm.trans hd
    rfl
  | @filed signature f u hbound hu hverifies hnew =>
    have hlive := (Store.live?_eq_some.1 hu).1
    refine h.file rfl rfl fun g hg => ?_
    rw [Store.filed?_append]
    rcases List.mem_append.1 hg with hg | hg
    · obtain ⟨hfound, hbacked⟩ := h.filed g hg
      rw [hfound, Option.some_or]
      exact ⟨rfl, hbacked.later (.filed hbound hu hverifies hnew)⟩
    · cases List.mem_singleton.1 hg
      rw [hnew, Option.none_or, if_pos rfl]
      exact ⟨rfl, hbound, u, signature, hlive, List.mem_cons_self, hverifies⟩
  | @updated user entity signature u now hu hverifies =>
    obtain ⟨hmem, rfl⟩ := Store.user?_eq_some (Store.live?_eq_some.1 hu).1
    -- the entity is a new one, but the registration is still the first
    obtain ⟨old, oldSignature, hregistered, hsigned⟩ := (h.users u hmem).registered
    have hdeclared : Event.declaration? (.served (.updateIdentity u.id entity signature)
        (some (.ok (.updated (.accepted ()))))) =
      some ⟨u.id, entity, .updateIdentity u.id entity, signature⟩ := rfl
    refine h.put (.updated hu hverifies) (.of_declaration hdeclared rfl hverifies
      ⟨old, oldSignature, List.mem_cons_of_mem _ hregistered, hsigned⟩) fun d hd => ?_
    cases hdeclared.symm.trans hd
    rfl

end Authorized

namespace Recorded

theorem empty : Recorded [] .empty where
  users _ he := absurd he List.not_mem_nil
  filed _ he := absurd he List.not_mem_nil

theorem step (h : Recorded past s) (he : Effect s e s') : Recorded (e :: past) s' where
  users e' he' d hd := by
    rcases List.mem_cons.1 he' with rfl | he'
    · cases he with
      | nothing hnone => cases hnone.symm.trans hd
      | deleted | filed => cases hd
      | @registered entity key _ id now =>
        cases hd
        exact ⟨.new id entity key now, by rw [Store.user?_createUser]; exact if_pos rfl⟩
      | @updated _ entity _ u now hu =>
        cases hd
        obtain ⟨-, rfl⟩ := Store.user?_eq_some (Store.live?_eq_some.1 hu).1
        exact ⟨u.setEntity entity now, by
          rw [Store.user?_createUser]
          exact if_pos rfl⟩
    · obtain ⟨u, hu⟩ := h.users e' he' d hd
      obtain ⟨u', hu', -⟩ := he.keeps_user hu
      exact ⟨u', hu'⟩
  filed e' he' f hf := by
    rcases List.mem_cons.1 he' with rfl | he'
    · cases he with
      | nothing _ hnone => cases hnone.symm.trans hf
      | deleted | registered | updated => cases hf
      | filed =>
        cases hf
        exact List.mem_append_right _ List.mem_cons_self
    · exact he.keeps_filed (h.filed e' he' f hf)

end Recorded

/-- What is authorized stays so, nothing gets lost, and nobody's key is exchanged. -/
theorem Run.later (h : Run o s future s') (hs : Authorized past s) (hr : Recorded past s) :
    Authorized (future ++ past) s' ∧ Recorded (future ++ past) s' ∧
      ∀ id u, s.user? id = some u →
        ∃ u', s'.user? id = some u' ∧ u'.id = u.id ∧ u'.publicKey = u.publicKey := by
  induction h with
  | start => exact ⟨hs, hr, fun id u hu => ⟨u, hu, rfl, rfl⟩⟩
  | step _ he ih =>
    obtain ⟨hauthorized, hrecorded, hkept⟩ := ih
    -- what an event does is known because the store has been usable so far
    have heffect := he.effect hauthorized.usable
    refine ⟨hauthorized.step heffect, hrecorded.step heffect, fun id u hu => ?_⟩
    obtain ⟨u₁, hu₁, hid₁, hkey₁⟩ := hkept id u hu
    obtain ⟨u₂, hu₂, hid₂, hkey₂⟩ := heffect.keeps_user hu₁
    exact ⟨u₂, hu₂, hid₂.trans hid₁, hkey₂.trans hkey₁⟩

/-- After any events, what is stored is what was accepted, each under a signature by the key that
answers for it, and users keep their identifiers and keys from then on. A request for an
attestation blames the store only where someone else's answer did. -/
theorem store_provenance (h : Run o .empty past s) (hfuture : Run o s future s') :
    Authorized past s ∧ Recorded past s ∧
      (∀ id u, s.user? id = some u →
        ∃ u', s'.user? id = some u' ∧ u'.id = u.id ∧ u'.publicKey = u.publicKey) ∧
      ∀ (E : Error → Prop) (r : Request) (e : Error) (s₁ : Store), r.isAttestation = true →
        Serves E (r.action o).run s (some (.error e)) s₁ → e.blamesStore = true → E e := by
  have hpast := h.later .empty .empty
  rw [List.append_nil] at hpast
  obtain ⟨hauthorized, hrecorded, -⟩ := hpast
  refine ⟨hauthorized, hrecorded, (hfuture.later hauthorized hrecorded).2.2,
    fun E r e s₁ hr hserves hblame => ?_⟩
  exact (ensures_attestation hauthorized.usable hr _ _ hserves).2 e rfl hblame

/-! ### A user who files a key set, takes another name and is deleted -/

def founder : PublicKey := Curve.Point.generator

def founded : Entity := { Entity.empty with name := "Acme" }

def renamed : Entity := { Entity.empty with name := "Acme Ltd" }

def founderId : UserId := .replicate 16 7

def founderKeys : KeySet := .single (.root .mainnet (.replicate 32 0) founder)

def foundingTime : Time := ⟨1700000000000000000⟩

def filingTime : Time := ⟨1700000060000000000⟩

def renamingTime : Time := ⟨1700000120000000000⟩

def founderUser : User := .new founderId founded founder foundingTime

def founderFiled : FiledKeys := ⟨.replicate 16 9, founderId, founderKeys, 1, filingTime⟩

def foundingSignature : Bytes := Curve.Der.encode
  ⟨0xc4cb434f97a0bca05a33d3a9aa35237516ddfa9181aff6c5eb2f33ba4e00856a,
    0x7a28b46a4cb043059bac85bc955bd29ae5b9a51dc391e0284d6b3408c641f1aa⟩

def filingSignature : Bytes := Curve.Der.encode
  ⟨0x59867bc2d923c3fdfa6cb5722f255fdee97731a36f4df296055ec9bbe7db8178,
    0x4f5c695fad5ff983c045f13e99848f177f81c472dc83c7785a94c20ae578a46e⟩

def renamingSignature : Bytes := Curve.Der.encode
  ⟨0x6ae0bd53fd1fabe45be40987d1ff6d910d29df6932ff807bbe1b3d90858e6b84,
    0x5558a7cb106b0ca739b84464525438fd2e35d9c1fdf2382a4ce05ab59ce03076⟩

def foundingOracle : Oracle := ⟨⟨1, founder⟩, none, .mainnet, 3600, 3600⟩

/-- The founder registers and files a key set. -/
def founding : List Event :=
  [.served (.addKeySet founderId founderKeys 1 filingSignature) (some (.ok (.filed founderFiled))),
    .served (.register founded founder foundingSignature)
      (some (.ok (.registered (.accepted founderId))))]

/-- The founder takes another name and is deleted. -/
def leaving : List Event :=
  [.deleted founderId, .served (.updateIdentity founderId renamed renamingSignature)
    (some (.ok (.updated (.accepted ()))))]

def afterFounding : Store := ⟨[founderUser], [founderFiled]⟩

def afterRenaming : Store := afterFounding.createUser (founderUser.setEntity renamed renamingTime)

def afterLeaving : Store := afterRenaming.delete founderId

theorem verifies_foundingSignature : PublicKey.verifies founder
    (Statement.registration founded).digest foundingSignature = true := by decide +kernel

theorem verifies_filingSignature : PublicKey.verifies founder
    (Statement.addKeySet founderId founderKeys 1).digest filingSignature = true := by
  decide +kernel

theorem verifies_renamingSignature : PublicKey.verifies founder
    (Statement.updateIdentity founderId renamed).digest renamingSignature = true := by
  decide +kernel

/-- The founder can register, whoever is there. -/
theorem serves_registering (s : Store) :
    Serves E (Request.action foundingOracle (.register founded founder foundingSignature)).run s
      (some (.ok (.registered (.accepted founderId)))) (s.createUser founderUser) :=
  serves_andThen (serves_register founderId foundingTime verifies_foundingSignature) (.done _ _)

theorem serves_filing :
    Serves E (Request.action foundingOracle
        (.addKeySet founderId founderKeys 1 filingSignature)).run
      (Store.createUser .empty founderUser) (some (.ok (.filed founderFiled))) afterFounding := by
  have hlive : (Store.createUser .empty founderUser).live? founderId = some founderUser := by
    rw [Store.live?, Store.user?_createUser]
    rfl
  exact serves_andThen (serves_addKeySet (.replicate 16 9) filingTime hlive (by decide)
    verifies_filingSignature rfl) (.done _ _)

theorem serves_renaming :
    Serves E (Request.action foundingOracle
        (.updateIdentity founderId renamed renamingSignature)).run
      afterFounding (some (.ok (.updated (.accepted ())))) afterRenaming := by
  have hlive : afterFounding.live? founderId = some founderUser := rfl
  exact serves_andThen (serves_updateIdentity renamingTime hlive verifies_renamingSignature)
    (.done _ _)

theorem run_founding : Run foundingOracle .empty founding afterFounding :=
  .step (.step .start (.serve (serves_registering .empty) fun _ _ => rfl))
    (.serve serves_filing fun _ h => by cases h)

theorem run_leaving : Run foundingOracle afterFounding leaving afterLeaving :=
  .step (.step .start (.serve serves_renaming fun _ h => by cases h)) (.delete _ founderId)

/-- The founder's key stays, and a certificate for the key set is not refused on account of the
store. -/
theorem provenance_of_founding :
    Run foundingOracle .empty founding afterFounding ∧
      Run foundingOracle afterFounding leaving afterLeaving ∧
      Authorized founding afterFounding ∧ Recorded founding afterFounding ∧
      (∃ u, afterLeaving.user? founderId = some u ∧ u.publicKey = founder) ∧
      ∀ e s₁, Serves (fun _ => False)
        (Request.action foundingOracle (.certifyAdmin ⟨founderKeys, 0, .entity founded, none⟩)).run
        afterFounding (some (.error e)) s₁ → e.blamesStore = false := by
  obtain ⟨hauthorized, hrecorded, hkept, hblame⟩ := store_provenance run_founding run_leaving
  obtain ⟨u, hu, -, hkey⟩ := hkept founderId founderUser rfl
  refine ⟨run_founding, run_leaving, hauthorized, hrecorded, ⟨u, hu, hkey⟩,
    fun e s₁ hserves => ?_⟩
  rw [← Bool.not_eq_true]
  exact hblame _ _ e s₁ rfl hserves

end Attestor.Oracle
