import Attestor.Oracle.Requests
import Attestor.Proofs.Address.Bytes
import Attestor.Proofs.Oracle.Serve

/-! What each request can do. Nothing is written without a signature by the key that answers for
it: the key that is being registered, or the registered one. A request that fails, is refused or
is given up leaves the store as it was, and so does every request for an attestation. -/

namespace Attestor.Oracle

variable {E : Error → Prop} {s : Store}

/-- The store is as it was. -/
def Unchanged (s : Store) (_ : Option Error) (s' : Store) : Prop := s' = s

theorem tolerant_unchanged : Tolerant E (Unchanged s) s := ⟨rfl, fun _ _ => rfl⟩

/-! ### Requests that change the store -/

theorem ensures_demandSignature {st : Statement} {signature : Bytes} {key : PublicKey}
    {fail : Option Error → Store → Prop} {ok : Unit → Store → Prop} (hfail : Tolerant E fail s)
    (hok : PublicKey.verifies key st.digest signature = true → ok () s) :
    Ensures E (demandSignature st signature key) s fail ok := by
  unfold demandSignature
  split_ifs with hverifies
  · exact .pure (hok hverifies)
  · exact .throw (hfail.some _ nofun)

theorem ensures_register (entity : Entity) (key : PublicKey) (signature : Bytes) :
    Ensures E (register entity key signature) s (Unchanged s) fun d s' =>
      (∃ id now, d = .accepted id ∧
        PublicKey.verifies key (Statement.registration entity).digest signature = true ∧
        s' = s.createUser (.new id entity key now)) ∨ (∃ m, d = .rejected m) ∧ s' = s := by
  have hfail : Tolerant E (Unchanged s) s := tolerant_unchanged
  refine .bind (ensures_demandSignature hfail fun hverifies => .bind (ensures_ask hfail .now rfl
    fun now => .bind (ensures_ask hfail .freshId rfl fun id =>
      .bind (ensures_approval hfail fun a => ?_))))
  split_ifs
  · exact .pure (.inr ⟨⟨_, rfl⟩, rfl⟩)
  · exact .bind (ensures_createUser hfail (.pure (.inl ⟨id, now, rfl, hverifies, rfl⟩)))

theorem ensures_addKeySet (user : UserId) (keys : KeySet) (required : UInt32)
    (signature : Bytes) :
    Ensures E (addKeySet user keys required signature) s (Unchanged s) fun f s' =>
      (f.user = user ∧ f.keys = keys ∧ f.required = required) ∧
        (0 < required.toNat ∧ required.toNat ≤ keys.size) ∧
        (∃ u, s.live? user = some u ∧ PublicKey.verifies u.publicKey
          (Statement.addKeySet user keys required).digest signature = true) ∧
        s.filed? keys = none ∧ s' = { s with filed := s.filed ++ [f] } := by
  have hfail : Tolerant E (Unchanged s) s := tolerant_unchanged
  unfold addKeySet
  split_ifs with hrequired
  · exact .bind (.throw rfl)
  · refine .bind (ensures_findUser hfail fun u hu => .bind (ensures_demandSignature hfail
      fun hverifies => .bind (ensures_ask hfail .freshId rfl fun id => .bind (ensures_ask hfail
        .now rfl fun now => .bind (ensures_fileKeys hfail
          fun hfiled => .pure ⟨⟨rfl, rfl, rfl⟩, ?_, ⟨u, hu, hverifies⟩, hfiled, rfl⟩)))))
    rw [not_or, ← UInt32.toNat_inj, not_lt] at hrequired
    exact ⟨Nat.pos_of_ne_zero hrequired.1, hrequired.2⟩

theorem ensures_updateIdentity (user : UserId) (entity : Entity) (signature : Bytes) :
    Ensures E (updateIdentity user entity signature) s (Unchanged s) fun d s' =>
      (d = .accepted () ∧ ∃ u now, s.live? user = some u ∧ PublicKey.verifies u.publicKey
          (Statement.updateIdentity user entity).digest signature = true ∧
        s' = s.createUser (u.setEntity entity now)) ∨ (∃ m, d = .rejected m) ∧ s' = s := by
  have hfail : Tolerant E (Unchanged s) s := tolerant_unchanged
  refine .bind (ensures_findUser hfail fun u hu => .bind (ensures_demandSignature hfail
    fun hverifies => .bind (ensures_approval hfail fun a => ?_)))
  split_ifs
  · exact .pure (.inr ⟨⟨_, rfl⟩, rfl⟩)
  · refine .bind (ensures_ask hfail .now rfl fun now => .bind (ensures_updateUser hfail fun v hv =>
      .pure (.inl ⟨rfl, u, now, hu, hverifies, ?_⟩)))
    have hid : (u.setEntity entity now).id = user :=
      (Store.user?_eq_some (Store.live?_eq_some.1 hu).1).2
    rw [hid, hu] at hv
    cases hv
    rfl

/-! ### Requests that are accepted -/

section Accepted

variable {entity : Entity} {keys : KeySet} {required : UInt32} {signature : Bytes} {u : User}

theorem serves_demandSignature {st : Statement} {key : PublicKey}
    (h : PublicKey.verifies key st.digest signature = true) :
    Serves E (demandSignature st signature key).run s (some (.ok ())) s := by
  rw [demandSignature, if_pos h]
  exact .done _ s

theorem serves_findUser {id : UserId} (hu : s.live? id = some u) :
    Serves E (findUser id).run s (some (.ok u)) s := by
  have hfind : s.findUser id = .ok u := by rw [Store.findUser, hu]
  exact serves_guarded (serves_answered (q := .store (.findUser id)) (by rw [← hfind]; rfl))

theorem serves_ask (q : Question) {a : q.Answer} {s' : Store} (ha : Answered E q s a s') :
    Serves E (liftM (ask q) : Action q.Answer).run s (some (.ok a)) s' :=
  .ask ha (.done _ s')

theorem serves_approval (operation : Operation) (h : Hook) :
    Serves E (approval operation h).run s (some (.ok .granted)) s :=
  serves_guarded (serves_answered (q := .approve h) ⟨rfl, fun _ h => nomatch h⟩)

theorem serves_createUser (u : User) :
    Serves E (createUser u).run s (some (.ok ())) (s.createUser u) :=
  serves_guarded (serves_answered (q := .store (.createUser u)) rfl)

theorem serves_updateUser {s' : Store} (h : s.updateUser u = .ok s') :
    Serves E (updateUser u).run s (some (.ok ())) s' := by
  have hanswer : Store.answer (.updateUser u) s = (.ok (), s') := by
    change s.changed (s.updateUser u) = _
    rw [h, Store.changed]
  exact serves_guarded (serves_answered (q := .store (.updateUser u)) hanswer)

theorem serves_fileKeys {s' : Store} {f : FiledKeys} (h : s.fileKeys f = .ok s') :
    Serves E (fileKeys f).run s (some (.ok ())) s' := by
  have hanswer : Store.answer (.fileKeys f) s = (.ok (), s') := by
    change s.changed (s.fileKeys f) = _
    rw [h, Store.changed]
  exact serves_guarded (serves_answered (q := .store (.fileKeys f)) hanswer)

/-- An entity can be registered under any new identifier by the holder of the key. -/
theorem serves_register {key : PublicKey} (id : UserId) (now : Time)
    (h : PublicKey.verifies key (Statement.registration entity).digest signature = true) :
    Serves E (register entity key signature).run s (some (.ok (.accepted id)))
      (s.createUser (.new id entity key now)) :=
  serves_andThen (serves_demandSignature h) (serves_andThen (serves_ask .now rfl)
    (serves_andThen (serves_ask .freshId rfl) (serves_andThen (serves_approval _ _)
      (serves_andThen (serves_createUser _) (.done _ _)))))

/-- Someone who is registered can file any key set that is not filed yet. -/
theorem serves_addKeySet {user : UserId} (id : Octets 16) (now : Time) (hu : s.live? user = some u)
    (hbound : 0 < required.toNat ∧ required.toNat ≤ keys.size)
    (h : PublicKey.verifies u.publicKey (Statement.addKeySet user keys required).digest
      signature = true) (hnew : s.filed? keys = none) :
    Serves E (addKeySet user keys required signature).run s
      (some (.ok ⟨id, user, keys, required, now⟩))
      { s with filed := s.filed ++ [⟨id, user, keys, required, now⟩] } := by
  have hrequired : ¬ (required = 0 ∨ keys.size < required.toNat) := by
    rintro (rfl | h)
    · exact absurd hbound.1 (by decide)
    · omega
  have hfile : s.fileKeys ⟨id, user, keys, required, now⟩ =
      .ok { s with filed := s.filed ++ [⟨id, user, keys, required, now⟩] } := by
    rw [Store.fileKeys, hnew]
    rfl
  unfold addKeySet
  rw [if_neg hrequired]
  exact serves_andThen (serves_findUser hu) (serves_andThen (serves_demandSignature h)
    (serves_andThen (serves_ask .freshId rfl) (serves_andThen (serves_ask .now rfl)
      (serves_andThen (serves_fileKeys hfile) (.done _ _)))))

/-- Someone who is registered can have the entity replaced. -/
theorem serves_updateIdentity {user : UserId} (now : Time) (hu : s.live? user = some u)
    (h : PublicKey.verifies u.publicKey (Statement.updateIdentity user entity).digest
      signature = true) :
    Serves E (updateIdentity user entity signature).run s (some (.ok (.accepted ())))
      (s.createUser (u.setEntity entity now)) := by
  have hid : (u.setEntity entity now).id = user :=
    (Store.user?_eq_some (Store.live?_eq_some.1 hu).1).2
  have hupdate : s.updateUser (u.setEntity entity now) =
      .ok (s.createUser (u.setEntity entity now)) := by
    rw [Store.updateUser, hid, hu]
    rfl
  exact serves_andThen (serves_findUser hu) (serves_andThen (serves_demandSignature h)
    (serves_andThen (serves_approval _ _) (serves_andThen (serves_ask .now rfl)
      (serves_andThen (serves_updateUser hupdate) (.done _ _)))))

end Accepted

/-! ### Attestations -/

/-- The store is as it was, and not to blame for anything but what others answered. -/
def Blameless (E : Error → Prop) (s : Store) (e : Option Error) (s' : Store) : Prop :=
  s' = s ∧ ∀ f, e = some f → f.blamesStore = true → E f

theorem tolerant_blameless : Tolerant E (Blameless E s) s where
  none := ⟨rfl, nofun⟩
  some _ he := ⟨rfl, fun _ hf => Option.some.inj hf ▸ he⟩

/-- What is stored can be used: entities can be read, and no key set asks for more signatures
than it has keys. -/
structure Usable (s : Store) : Prop where
  readable : ∀ u ∈ s.users, ∃ e, Entity.ofBytes u.entity = .ok e
  bounded : ∀ f ∈ s.filed, 0 < f.required.toNat ∧ f.required.toNat ≤ f.keys.size

theorem ensures_registered (hs : Usable s) {u : User} {id : UserId} (hu : s.live? id = some u)
    {fail : Option Error → Store → Prop} {ok : Entity → Store → Prop} (hok : ∀ e, ok e s) :
    Ensures E (registered u) s fail ok := by
  obtain ⟨e, he⟩ := hs.readable u (Store.user?_eq_some (Store.live?_eq_some.1 hu).1).1
  have hregistered : u.registered = .ok e := by
    rw [User.registered, he]
    rfl
  rw [registered, hregistered]
  exact .pure (hok e)

theorem blamesStore_of_child? {key : ExtendedKey} {index : UInt32} {e : Key.Error}
    (h : key.child? index = .error e) : (Error.key e).blamesStore = false := by
  simp only [ExtendedKey.child?] at h
  split at h
  · cases h
    rfl
  · split at h
    · cases h
      rfl
    · split at h
      · split at h <;> cases h
        rfl
      · cases h
        rfl

theorem children_cases (keys : KeySet) (index : UInt32) :
    (∃ children, keys.children index = .ok children ∧ children.length = keys.size) ∨
      ∃ e, keys.children index = .error e ∧ (Error.key e).blamesStore = false := by
  unfold KeySet.children KeySet.size
  induction keys.keys with
  | nil => exact .inl ⟨[], rfl, rfl⟩
  | cons key rest ih =>
    rw [List.mapM_cons]
    cases hkey : key.child? index with
    | error e => exact .inr ⟨e, rfl, blamesStore_of_child? hkey⟩
    | ok child =>
      rcases ih with ⟨children, hchildren, hlength⟩ | ⟨e, he, hblame⟩
      · exact .inl ⟨child.publicKey :: children, by rw [hchildren]; rfl, congrArg (· + 1) hlength⟩
      · exact .inr ⟨e, by rw [he]; rfl, hblame⟩

theorem ensures_childAddress (hs : Usable s) {keys : KeySet} {index : UInt32} {f : FiledKeys}
    (hf : s.filed? keys = some f) {ok : Address → Store → Prop} (hok : ∀ a, ok a s) :
    Ensures E (ofKey (childAddress keys index f.required)) s (Blameless E s) ok := by
  obtain ⟨hmem, rfl⟩ := Store.filed?_eq_some hf
  obtain ⟨hpos, hle⟩ := hs.bounded f hmem
  rcases children_cases f.keys index with ⟨children, hchildren, hlength⟩ | ⟨e, he, hblame⟩
  · have hmany : children.length ≤ 255 := hlength ▸ f.keys.length_le
    obtain ⟨a, ha⟩ := Address.exists_ofKeys_iff.2
      ⟨hpos, hlength ▸ hle, hmany.trans (by decide)⟩
    have haddress : childAddress f.keys index f.required = .ok a := by
      rw [childAddress, hchildren]
      exact ha
    rw [haddress]
    exact .pure (hok a)
  · have haddress : childAddress f.keys index f.required = .error e := by
      rw [childAddress, he]
      rfl
    rw [haddress]
    exact .throw (tolerant_blameless.some _ fun h => by simp [hblame] at h)

theorem ensures_judgeTarget (target : AdminTarget) (full : Entity) (note : String)
    {fail : Option Error → Store → Prop} (hfail : Tolerant E fail s)
    {ok : Bool × String → Store → Prop} (hok : ∀ j, ok j s) :
    Ensures E (judgeTarget target full note) s fail ok := by
  cases target with
  | entity claimed => exact .pure (hok _)
  | contract a =>
    refine .bind (ensures_formation hfail fun f => ?_)
    cases f.issuer <;> exact .pure (hok _)

theorem ensures_verifyKey (hs : Usable s) (entity : Entity) (key : ExtendedKey)
    (index : UInt32) :
    Ensures E (verifyKey entity key index) s (Blameless E s) fun _ s' => s' = s := by
  have hfail : Tolerant E (Blameless E s) s := tolerant_blameless
  refine .bind (ensures_findOwner hfail fun u f _ hu => .bind (ensures_registered hs hu fun full =>
    .bind (ensures_approval hfail fun a => ?_)))
  split_ifs
  · exact .pure rfl
  · refine .bind (ensures_ofKey (fun e he => hfail.some _ ?_) fun child _ =>
      .bind (ensures_signingBlock hfail fun b => .pure rfl))
    rw [blamesStore_of_child? he]
    exact nofun

theorem ensures_verifyKeys (hs : Usable s) (entity : Entity) (keys : KeySet) :
    Ensures E (verifyKeys entity keys) s (Blameless E s) fun _ s' => s' = s := by
  have hfail : Tolerant E (Blameless E s) s := tolerant_blameless
  refine .bind (ensures_findOwner hfail fun u f _ hu => .bind (ensures_registered hs hu fun full =>
    .bind (ensures_approval hfail fun a => ?_)))
  split_ifs
  · exact .pure rfl
  · exact .bind (ensures_signingBlock hfail fun b => .pure rfl)

theorem ensures_certifyAdmin (hs : Usable s) (o : Oracle) (r : AdminRequest) :
    Ensures E (o.certifyAdmin r) s (Blameless E s) fun _ s' => s' = s := by
  have hfail : Tolerant E (Blameless E s) s := tolerant_blameless
  refine .bind (ensures_findOwner hfail fun u _ _ hu => .bind (ensures_registered hs hu fun full =>
    .bind (ensures_findKeys hfail fun f hf => .bind (ensures_approval hfail fun a => ?_))))
  split_ifs
  · exact .pure rfl
  · exact .bind (ensures_childAddress hs hf fun address => .bind (ensures_judgeTarget _ _ _ hfail
      fun j => .bind (ensures_signingBlock hfail fun b => .bind (ensures_expiry hfail
        fun t => .pure rfl))))

theorem ensures_approveTransfer (hs : Usable s) (o : Oracle) (r : TransferRequest) :
    Ensures E (o.approveTransfer r) s (Blameless E s) fun _ s' => s' = s := by
  have hfail : Tolerant E (Blameless E s) s := tolerant_blameless
  refine .bind (ensures_findOwner hfail fun u _ _ hu => .bind (ensures_findKeys hfail fun f hf =>
    .bind (ensures_approval hfail fun a => ?_)))
  split_ifs
  · exact .pure rfl
  · exact .bind (ensures_signingBlock hfail fun b => .bind (ensures_childAddress hs hf
      fun address => .bind (ensures_expiry hfail fun t => .pure rfl)))

end Attestor.Oracle
