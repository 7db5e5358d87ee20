import Attestor.Oracle.Requests
import Attestor.Proofs.Entity.Mismatch
import Attestor.Proofs.Formations.Observe
import Attestor.Proofs.Store

/-! What comes of a request for an attestation. The four kinds look things up in different orders
and stop at different places, but they obey one law. Something is signed just when the owner is
found, the approver agrees, what the statement is about can be derived, a contract that counts can
be read, and the window is full. What is signed is the digest of a statement about the request's own
data, and the answer gives the approval, the height and the expiration that this statement has. -/

namespace Attestor

/-- There is a block to sign against just when the window is full. -/
theorem Tracker.exists_signingBlock_iff {t : Tracker} :
    (∃ b, t.signingBlock = .ok b) ↔ t.offset ≤ t.window.size := by
  have hpos := t.offset_pos
  constructor
  · rintro ⟨b, hb⟩
    by_contra hshort
    rw [signingBlock, if_pos (not_le.1 hshort)] at hb
    cases hb
  · intro hfull
    have hlt : t.window.size - t.offset < t.window.hashes.length := by
      simp only [Window.size] at hfull ⊢
      omega
    rw [signingBlock, if_neg (not_lt.2 hfull), List.getElem?_eq_getElem hlt]
    exact ⟨_, rfl⟩

namespace Oracle

variable {α β : Type}

/-- What a request meets. While it is served nothing of it changes, and nobody cancels it. -/
structure Surroundings where
  store : Store
  tracker : Tracker
  formations : Formations
  /-- What the storage of formations answers for a key. -/
  script : Bytes → Except Error (Option Bytes)
  approver : Hook → Except Error Approval
  now : Time
  /-- The answers to everything that no attestation asks. -/
  other : (q : Service.Question) → q.Answer

namespace Surroundings

def reply (w : Surroundings) : (q : Service.Question) → q.Answer
  | .canceled => false
  | .store q => (Store.answer q w.store).1
  | .readScript key => w.script key
  | .approve h => w.approver h
  | .signingBlock => w.tracker.signingBlock
  | .now => w.now
  | q => w.other q

/-- The formation that is filed for a contract, if it can be read. -/
def formation (w : Surroundings) (a : Address) : Except Error Formation :=
  w.script a.bytes >>= w.formations.reading a

/-- The answers in the oracle's own words. -/
def answer (w : Surroundings) : (q : Question) → q.Answer
  | .canceled => false
  | .store q => (Store.answer q w.store).1
  | .approve h => w.approver h
  | .signingBlock => w.tracker.signingBlock
  | .formation a => w.formation a
  | .now => w.now
  | .freshId => w.other .freshId

end Surroundings

variable {w : Surroundings}

/-! ### Actions in unchanging surroundings -/

/-- What an action of the oracle comes to in the service. -/
def outcome (w : Surroundings) (x : Action α) : Option (Except Error α) :=
  ((x.run.via (Service.ofOracle w.formations)).run (fun q u => (w.reply q, u)) ()).1

/-- An action comes to a result. -/
def Gives (w : Surroundings) (x : Action α) (a : α) : Prop := outcome w x = some (.ok a)

theorem run_formation (w : Surroundings) (a : Address) (u : Unit) :
    ((w.formations.get a).run.via Service.ofFormations).run (fun q u => (w.reply q, u)) u =
      (some (w.formation a), u) := by
  let tell : (q : Formations.Question) → StateM Unit q.Answer
    | .canceled, u => (false, u)
    | .acquire, u => (w.other .acquire, u)
    | .release, u => (w.other .release, u)
    | .read key, u => (w.script key, u)
    | .write key script, u => (w.other (.writeScript key script), u)
  have htell : ∀ (q : Formations.Question) (u : Unit),
      (Service.ofFormations q).run (fun q u => (w.reply q, u)) u =
        (some (tell q u).1, (tell q u).2) := fun q u => by cases q <;> rfl
  have hread : (Formations.read a.bytes).run.run tell u = (some (w.script a.bytes), u) := rfl
  rw [Dialogue.run_via htell, Surroundings.formation, Formations.get]
  refine (Dialogue.run_bind tell (Formations.read a.bytes).run (ExceptT.bindCont _) u).trans ?_
  rw [hread]
  cases w.script a.bytes with
  | error e => rfl
  | ok filed =>
    cases filed with
    | none => rfl
    | some script =>
      simp only [bind, Except.bind, Formations.reading, ExceptT.bindCont]
      cases Formation.ofScript script w.formations.isTest <;> rfl

theorem outcome_eq (w : Surroundings) (x : Action α) :
    outcome w x = (x.run.run (fun q u => (w.answer q, u)) ()).1 := by
  refine congrArg Prod.fst (Dialogue.run_via (fun q u => ?_) _ _)
  cases q with
  | formation a => exact run_formation w a u
  | _ => rfl

theorem outcome_bind (x : Action α) (f : α → Action β) : outcome w (x >>= f) =
    match outcome w x with
    | some (.ok a) => outcome w (f a)
    | some (.error e) => some (.error e)
    | none => none := by
  simp only [outcome_eq]
  refine (congrArg Prod.fst (Dialogue.run_bind_except _ x f ())).trans ?_
  rcases x.run.run (fun q u => (w.answer q, u)) () with ⟨_ | _ | a, u⟩ <;> rfl

theorem gives_bind {x : Action α} {f : α → Action β} {b : β} :
    Gives w (x >>= f) b ↔ ∃ a, Gives w x a ∧ Gives w (f a) b := by
  simp only [Gives, outcome_bind]
  rcases outcome w x with _ | _ | a <;> simp

theorem gives_of_outcome {x : Action α} {r : Except Error α} (h : outcome w x = some r) {a : α} :
    Gives w x a ↔ r = .ok a := by
  rw [Gives, h, Option.some_inj]

theorem gives_pure {a b : α} : Gives w (pure a) b ↔ b = a := by
  rw [gives_of_outcome (r := .ok a) rfl, Except.ok.injEq, eq_comm]

theorem gives_unless {b : Bool} {x y : Action α} {a : α} :
    Gives w (if (!b) = true then x else y) a ↔
      b = false ∧ Gives w x a ∨ b = true ∧ Gives w y a := by
  cases b <;> simp

theorem gives_findOwner {keys : KeySet} {u : User} : Gives w (findOwner keys) u ↔
    ∃ f, w.store.filed? keys = some f ∧ w.store.live? f.user = some u :=
  (gives_of_outcome (r := w.store.findOwner keys) rfl).trans Store.findOwner_eq_ok

theorem gives_findKeys {keys : KeySet} {f : FiledKeys} : Gives w (findKeys keys) f ↔
    w.store.filed? keys = some f ∧ ∃ u, w.store.live? f.user = some u :=
  (gives_of_outcome (r := w.store.findKeys keys) rfl).trans Store.findKeys_eq_ok

theorem gives_approval {operation : Operation} {h : Hook} {a : Approval} :
    Gives w (approval operation h) a ↔ w.approver h = .ok a := gives_of_outcome rfl

theorem gives_signingBlock {b : Digest × UInt32} :
    Gives w signingBlock b ↔ w.tracker.signingBlock = .ok b := gives_of_outcome rfl

theorem gives_formation {a : Address} {f : Formation} :
    Gives w (formation a) f ↔ w.formation a = .ok f :=
  gives_of_outcome (outcome_eq w (formation a))

theorem gives_ofKey {r : Except Key.Error α} {a : α} : Gives w (ofKey r) a ↔ r = .ok a := by
  cases r with
  | error e => exact (gives_of_outcome (r := .error (.key e)) rfl).trans (by simp)
  | ok b => exact (gives_of_outcome (r := .ok b) rfl).trans (by simp)

theorem gives_registered {u : User} {e : Entity} :
    Gives w (registered u) e ↔ Entity.ofBytes u.entity = .ok e := by
  refine (gives_of_outcome (r := u.registered) rfl).trans ?_
  rw [User.registered]
  cases Entity.ofBytes u.entity <;> simp [Except.mapError]

theorem gives_expiry {asked : Option UInt64} {seconds t : UInt64} :
    Gives w (expiry asked seconds) t ↔ t = asked.getD (timeAfter w.now seconds) := by
  cases asked with
  | some t' => exact gives_pure
  | none =>
    exact (gives_of_outcome (r := .ok (timeAfter w.now seconds)) rfl).trans (by simp [eq_comm])

/-! ### Judgements -/

theorem fst_judge {claimed registered : Entity} {note : String} :
    (judge claimed registered note).1 = true ↔ claimed.Within registered := by
  rw [← Entity.mismatch?_eq_none_iff, judge]
  cases claimed.mismatch? registered <;> simp

theorem snd_judge {claimed registered : Entity} {note : String}
    (h : (judge claimed registered note).1 = true) :
    (judge claimed registered note).2 = note := by
  unfold judge at h ⊢
  split
  · rfl
  · simp_all

/-- The entity that an administrator is to be certified for, if there is one. -/
def Surroundings.claimed? (w : Surroundings) : AdminTarget → Option Entity
  | .entity claimed => some claimed
  | .contract a => (w.formation a).toOption.bind Formation.issuer

/-- Whether a target that is a contract can be read. -/
def Surroundings.Reads (w : Surroundings) : AdminTarget → Prop
  | .entity _ => True
  | .contract a => ∃ f, w.formation a = .ok f

theorem gives_judgeTarget {target : AdminTarget} {full : Entity} {note : String}
    {j : Bool × String} : Gives w (judgeTarget target full note) j ↔
      w.Reads target ∧ j = match w.claimed? target with
        | some claimed => judge claimed full note
        | none => (false, "Contract formation has no issuer") := by
  cases target with
  | entity claimed => simp [judgeTarget, gives_pure, Surroundings.Reads, Surroundings.claimed?]
  | contract a =>
    simp only [judgeTarget, gives_bind, gives_formation, Surroundings.Reads,
      Surroundings.claimed?]
    cases w.formation a with
    | error e => simp
    | ok f => cases hf : f.issuer <;> simp [Except.toOption, hf, gives_pure]

/-! ### The four kinds of requests -/

/-- A request for an attestation. -/
inductive Inquiry where
  | key (entity : Entity) (key : ExtendedKey) (index : UInt32)
  | keys (entity : Entity) (keys : KeySet)
  | admin (r : AdminRequest)
  | transfer (r : TransferRequest)

namespace Inquiry

def action (o : Oracle) : Inquiry → Action Attestation
  | key entity k index => verifyKey entity k index
  | keys entity ks => verifyKeys entity ks
  | admin r => o.certifyAdmin r
  | transfer r => o.approveTransfer r

/-- The key set by which the owner is found. -/
def keySet : Inquiry → KeySet
  | key _ k _ => .single k
  | keys _ ks => ks
  | admin r => r.keys
  | transfer r => r.keys

/-- What the approver is asked about the owner. -/
def hook (o : Oracle) (owner : UserId) : Inquiry → Hook
  | key _ _ _ | keys _ _ | admin _ => .identity owner
  | transfer r => .transfer (r.contract.text o.network) r.instrument.text owner

def isTransfer : Inquiry → Bool
  | transfer _ => true
  | key _ _ _ | keys _ _ | admin _ => false

/-- The entity that the owner is claimed to be, if there is one. -/
def claimed? (w : Surroundings) : Inquiry → Option Entity
  | key entity _ _ | keys entity _ => some entity
  | admin r => w.claimed? r.target
  | transfer _ => none

/-- The key set is filed for a user who is not deleted. Except for transfers, the user's entity
can be read. -/
structure Owned (w : Surroundings) (i : Inquiry) (f : FiledKeys) (u : User) : Prop where
  filed : w.store.filed? i.keySet = some f
  live : w.store.live? f.user = some u
  readable : i.isTransfer = false → ∃ e, Entity.ofBytes u.entity = .ok e

/-- The child key, or the address of the child keys, can be derived. -/
def Derivable (f : FiledKeys) : Inquiry → Prop
  | key _ k index => ∃ child, k.child? index = .ok child
  | keys _ _ => True
  | admin r => ∃ a, childAddress r.keys r.index f.required = .ok a
  | transfer r => ∃ a, childAddress r.keys r.index f.required = .ok a

/-- A contract whose issuer counts can be read. -/
def Reads (w : Surroundings) : Inquiry → Prop
  | admin r => w.Reads r.target
  | key _ _ _ | keys _ _ | transfer _ => True

/-- When what is asked for expires, if ever. -/
def expiration? (w : Surroundings) (o : Oracle) : Inquiry → Option UInt64
  | key _ _ _ | keys _ _ => none
  | admin r => some (r.expiration.getD (timeAfter w.now o.identityExpiration))
  | transfer r => some (r.expiration.getD (timeAfter w.now o.transferExpiration))

/-- The statement that is asked for, with the block, the judgement and the expiration that an
answer gives. -/
def Says (f : FiledKeys) (block : Digest) (approved : Bool) (expiration : Option UInt64)
    (st : Statement) : Inquiry → Prop
  | key entity k index => expiration = none ∧ ∃ child, k.child? index = .ok child ∧
      st = .entityKey entity child.publicKey block approved
  | keys entity ks => expiration = none ∧ st = .entityKeys entity ks block approved
  | admin r => ∃ a t, childAddress r.keys r.index f.required = .ok a ∧ expiration = some t ∧
      st = .admin a r.target block t approved
  | transfer r => ∃ a t, childAddress r.keys r.index f.required = .ok a ∧ expiration = some t ∧
      st = .transfer r.contract r.instrument.code a block t approved

/-- How the claim is judged about a user for whom the approver has left a note. -/
def Judged (w : Surroundings) (u : User) (note : String) (j : Bool × String) : Inquiry → Prop
  | key entity _ _ | keys entity _ => ∃ full, Entity.ofBytes u.entity = .ok full ∧
      j = judge entity full note
  | admin r => ∃ full, Entity.ofBytes u.entity = .ok full ∧
      Gives w (judgeTarget r.target full note) j
  | transfer _ => j = (true, note)

variable {o : Oracle} {i : Inquiry} {f : FiledKeys} {u : User} {st : Statement} {note : String}
  {j : Bool × String} {a : Attestation}

theorem exists_says_iff (block : Digest) (approved : Bool) :
    (∃ st, i.Says f block approved (i.expiration? w o) st) ↔ i.Derivable f := by
  cases i with
  | keys => exact iff_of_true ⟨_, rfl, rfl⟩ trivial
  | key => exact ⟨fun ⟨_, _, child, hchild, _⟩ => ⟨child, hchild⟩,
      fun ⟨child, hchild⟩ => ⟨_, rfl, child, hchild, rfl⟩⟩
  | admin | transfer =>
    exact ⟨fun ⟨_, a, _, ha, _⟩ => ⟨a, ha⟩, fun ⟨a, ha⟩ => ⟨_, a, _, ha, rfl, rfl⟩⟩

theorem exists_judged_iff
    (hreadable : i.isTransfer = false → ∃ e, Entity.ofBytes u.entity = .ok e) :
    (∃ j, i.Judged w u note j) ↔ i.Reads w := by
  cases i with
  | key | keys =>
    obtain ⟨e, he⟩ := hreadable rfl
    exact iff_of_true ⟨_, e, he, rfl⟩ trivial
  | transfer r => exact iff_of_true ⟨_, rfl⟩ trivial
  | admin r =>
    obtain ⟨e, he⟩ := hreadable rfl
    simp only [Judged, gives_judgeTarget, Reads]
    exact ⟨fun ⟨_, _, _, hreads, _⟩ => hreads, fun hreads => ⟨_, e, he, hreads, rfl⟩⟩

theorem fst_of_judged (h : i.Judged w u note j) : j.1 = true ↔ i.isTransfer = true ∨
    ∃ claimed full, i.claimed? w = some claimed ∧ Entity.ofBytes u.entity = .ok full ∧
      claimed.Within full := by
  cases i with
  | key | keys =>
    obtain ⟨full, hfull, rfl⟩ := h
    simp [fst_judge, isTransfer, claimed?, hfull]
  | transfer r =>
    cases h
    simp [isTransfer]
  | admin r =>
    obtain ⟨full, hfull, hj⟩ := h
    obtain ⟨-, rfl⟩ := gives_judgeTarget.1 hj
    cases hc : w.claimed? r.target <;> simp [fst_judge, isTransfer, claimed?, hfull, hc]

/-- A claim that is backed carries the note. -/
theorem snd_of_judged (h : i.Judged w u note j) (hj : j.1 = true) : j.2 = note := by
  cases i with
  | key | keys =>
    obtain ⟨full, -, rfl⟩ := h
    exact snd_judge hj
  | transfer r =>
    cases h
    rfl
  | admin r =>
    obtain ⟨full, -, hjudge⟩ := h
    obtain ⟨-, rfl⟩ := gives_judgeTarget.1 hjudge
    cases hc : w.claimed? r.target with
    | none => simp [hc] at hj
    | some claimed =>
      simp only [hc] at hj ⊢
      exact snd_judge hj

/-- All that a request can come to without an error. -/
def Concludes (w : Surroundings) (o : Oracle) (i : Inquiry) (f : FiledKeys) (u : User)
    (approval : Approval) (a : Attestation) : Prop :=
  approval.approved = false ∧ a = .rejected approval.description ∨
    approval.approved = true ∧ ∃ st block height j,
      w.tracker.signingBlock = .ok (block, height) ∧
      i.Says f block j.1 (i.expiration? w o) st ∧ i.Judged w u approval.description j ∧
      a = .signed ⟨st.digest, height, j.1, j.2⟩ (i.expiration? w o)

theorem gives_action : Gives w (i.action o) a ↔ ∃ f u approval, i.Owned w f u ∧
    w.approver (i.hook o u.id) = .ok approval ∧ i.Concludes w o f u approval a := by
  cases i with
  | key entity k index =>
    simp only [action, verifyKey, gives_bind, gives_findOwner, gives_registered, identityApproval,
      gives_approval, gives_unless, gives_pure, gives_ofKey, gives_signingBlock]
    constructor
    · rintro ⟨u, ⟨f, hf, hu⟩, full, hfull, approval, happroval, hc⟩
      refine ⟨f, u, approval, ⟨hf, hu, fun _ => ⟨full, hfull⟩⟩, happroval, hc.imp_right ?_⟩
      rintro ⟨happroved, child, hchild, ⟨block, height⟩, hblock, rfl⟩
      exact ⟨happroved, _, block, height, _, hblock, ⟨rfl, child, hchild, rfl⟩,
        ⟨full, hfull, rfl⟩, rfl⟩
    · rintro ⟨f, u, approval, ⟨hf, hu, hreadable⟩, happroval, hc⟩
      obtain ⟨full, hfull⟩ := hreadable rfl
      refine ⟨u, ⟨f, hf, hu⟩, full, hfull, approval, happroval, hc.imp_right ?_⟩
      rintro ⟨happroved, _, block, height, _, hblock, ⟨-, child, hchild, rfl⟩, ⟨_, hfull', rfl⟩,
        rfl⟩
      cases hfull.symm.trans hfull'
      exact ⟨happroved, child, hchild, (block, height), hblock, rfl⟩
  | keys entity ks =>
    simp only [action, verifyKeys, gives_bind, gives_findOwner, gives_registered, identityApproval,
      gives_approval, gives_unless, gives_pure, gives_signingBlock]
    constructor
    · rintro ⟨u, ⟨f, hf, hu⟩, full, hfull, approval, happroval, hc⟩
      refine ⟨f, u, approval, ⟨hf, hu, fun _ => ⟨full, hfull⟩⟩, happroval, hc.imp_right ?_⟩
      rintro ⟨happroved, ⟨block, height⟩, hblock, rfl⟩
      exact ⟨happroved, _, block, height, _, hblock, ⟨rfl, rfl⟩, ⟨full, hfull, rfl⟩, rfl⟩
    · rintro ⟨f, u, approval, ⟨hf, hu, hreadable⟩, happroval, hc⟩
      obtain ⟨full, hfull⟩ := hreadable rfl
      refine ⟨u, ⟨f, hf, hu⟩, full, hfull, approval, happroval, hc.imp_right ?_⟩
      rintro ⟨happroved, _, block, height, _, hblock, ⟨-, rfl⟩, ⟨_, hfull', rfl⟩, rfl⟩
      cases hfull.symm.trans hfull'
      exact ⟨happroved, (block, height), hblock, rfl⟩
  | admin r =>
    simp only [action, certifyAdmin, gives_bind, gives_findOwner, gives_registered, gives_findKeys,
      identityApproval, gives_approval, gives_unless, gives_pure, gives_ofKey, gives_signingBlock,
      gives_expiry]
    constructor
    · rintro ⟨u, ⟨f, hf, hu⟩, full, hfull, _, ⟨hf', -⟩, approval, happroval, hc⟩
      cases hf.symm.trans hf'
      refine ⟨f, u, approval, ⟨hf, hu, fun _ => ⟨full, hfull⟩⟩, happroval, hc.imp_right ?_⟩
      rintro ⟨happroved, a, ha, j, hj, ⟨block, height⟩, hblock, _, rfl, rfl⟩
      exact ⟨happroved, _, block, height, j, hblock, ⟨a, _, ha, rfl, rfl⟩, ⟨full, hfull, hj⟩, rfl⟩
    · rintro ⟨f, u, approval, ⟨hf, hu, hreadable⟩, happroval, hc⟩
      obtain ⟨full, hfull⟩ := hreadable rfl
      refine ⟨u, ⟨f, hf, hu⟩, full, hfull, f, ⟨hf, u, hu⟩, approval, happroval, hc.imp_right ?_⟩
      rintro ⟨happroved, _, block, height, j, hblock, ⟨a, _, ha, ⟨⟩, rfl⟩, ⟨_, hfull', hj⟩, rfl⟩
      cases hfull.symm.trans hfull'
      exact ⟨happroved, a, ha, j, hj, (block, height), hblock, _, rfl, rfl⟩
  | transfer r =>
    simp only [action, approveTransfer, gives_bind, gives_findOwner, gives_findKeys,
      gives_approval, gives_unless, gives_pure, gives_ofKey, gives_signingBlock, gives_expiry]
    constructor
    · rintro ⟨u, ⟨f, hf, hu⟩, _, ⟨hf', -⟩, approval, happroval, hc⟩
      cases hf.symm.trans hf'
      refine ⟨f, u, approval, ⟨hf, hu, nofun⟩, happroval, hc.imp_right ?_⟩
      rintro ⟨happroved, ⟨block, height⟩, hblock, a, ha, _, rfl, rfl⟩
      exact ⟨happroved, _, block, height, _, hblock, ⟨a, _, ha, rfl, rfl⟩, rfl, rfl⟩
    · rintro ⟨f, u, approval, ⟨hf, hu, -⟩, happroval, hc⟩
      refine ⟨u, ⟨f, hf, hu⟩, f, ⟨hf, u, hu⟩, approval, happroval, hc.imp_right ?_⟩
      rintro ⟨happroved, _, block, height, _, hblock, ⟨a, _, ha, ⟨⟩, rfl⟩, rfl, rfl⟩
      exact ⟨happroved, (block, height), hblock, a, ha, _, rfl, rfl⟩

/-- A request for an attestation ends with a digest to be signed just when the owner is found, the
approver agrees, all that the statement needs can be had, and the window is full. It is rejected
just when the owner is found and the approver refuses, whatever else may be. The digest is that of
a statement that names the block that the tracker signs against, speaks of the request's own entity
or target and of the key or address that was derived, and says the same as the answer about the
height of the block, the approval and the expiration. It approves the claim just when all of it is
registered, and then the answer carries the approver's note. For a transfer nothing is claimed. -/
theorem attestation_outcome (w : Surroundings) (o : Oracle) (i : Inquiry) :
    ((∃ h expiration, Gives w (i.action o) (.signed h expiration)) ↔
      ∃ f u note, i.Owned w f u ∧ w.approver (i.hook o u.id) = .ok ⟨true, note⟩ ∧
        i.Derivable f ∧ i.Reads w ∧ w.tracker.offset ≤ w.tracker.window.size) ∧
    (∀ note, Gives w (i.action o) (.rejected note) ↔
      ∃ f u, i.Owned w f u ∧ w.approver (i.hook o u.id) = .ok ⟨false, note⟩) ∧
    ∀ h expiration, Gives w (i.action o) (.signed h expiration) →
      ∃ f u note block st, i.Owned w f u ∧ w.approver (i.hook o u.id) = .ok ⟨true, note⟩ ∧
        w.tracker.signingBlock = .ok (block, h.height) ∧
        i.Says f block h.approved expiration st ∧ h.hash = st.digest ∧
        expiration = i.expiration? w o ∧
        (h.approved = true ↔ i.isTransfer = true ∨ ∃ claimed full,
          i.claimed? w = some claimed ∧ Entity.ofBytes u.entity = .ok full ∧
            claimed.Within full) ∧
        (h.approved = true → h.description = note) := by
  refine ⟨⟨?_, ?_⟩, fun note => ⟨?_, ?_⟩, fun h expiration hgives => ?_⟩
  · rintro ⟨h, expiration, hgives⟩
    obtain ⟨f, u, ⟨approved, told⟩, howned, happroval, ⟨-, ha⟩ | ⟨rfl, hc⟩⟩ :=
      gives_action.1 hgives
    · cases ha
    · obtain ⟨st, block, height, j, hblock, hsays, hjudged, -⟩ := hc
      exact ⟨f, u, told, howned, happroval, (exists_says_iff block j.1).1 ⟨st, hsays⟩,
        (exists_judged_iff howned.readable).1 ⟨j, hjudged⟩,
        Tracker.exists_signingBlock_iff.1 ⟨_, hblock⟩⟩
  · rintro ⟨f, u, note, howned, happroval, hderivable, hreads, hfull⟩
    obtain ⟨⟨block, height⟩, hblock⟩ := Tracker.exists_signingBlock_iff.2 hfull
    obtain ⟨j, hjudged⟩ := (exists_judged_iff howned.readable).2 hreads
    obtain ⟨st, hsays⟩ := (exists_says_iff block j.1).2 hderivable
    exact ⟨_, _, gives_action.2 ⟨f, u, ⟨true, note⟩, howned, happroval,
      .inr ⟨rfl, st, block, height, j, hblock, hsays, hjudged, rfl⟩⟩⟩
  · intro h
    obtain ⟨f, u, ⟨approved, told⟩, howned, happroval, ⟨rfl, ha⟩ | ⟨-, hc⟩⟩ := gives_action.1 h
    · cases ha
      exact ⟨f, u, howned, happroval⟩
    · obtain ⟨_, _, _, _, -, -, -, ha⟩ := hc
      cases ha
  · rintro ⟨f, u, howned, happroval⟩
    exact gives_action.2 ⟨f, u, ⟨false, note⟩, howned, happroval, .inl ⟨rfl, rfl⟩⟩
  · obtain ⟨f, u, ⟨approved, told⟩, howned, happroval, ⟨-, ha⟩ | ⟨rfl, hc⟩⟩ :=
      gives_action.1 hgives
    · cases ha
    · obtain ⟨st, block, _, j, hblock, hsays, hjudged, ha⟩ := hc
      cases ha
      exact ⟨f, u, told, block, st, howned, happroval, hblock, hsays, rfl, rfl,
        fst_of_judged hjudged, snd_of_judged hjudged⟩

end Inquiry

end Oracle

end Attestor
