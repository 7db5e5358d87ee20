import Attestor.Proofs.Oracle.Conduct

/-! Many requests at work on one store. Each of them asks one question after another, and between
any two of them the others may ask theirs, users may be deleted, and new requests may come; a
request that is dropped simply asks no more. The store answers its questions one at a time. What a
request has been told by then may not be true any more, but some of it stays true: users are never
taken out, key sets stay filed for the same user, and so all that any request is ever told of the
owner of a key set agrees. -/

namespace Attestor.Oracle.Concurrent

/-- A request at work: what it has been told, the latest first, and what it still does. -/
structure Client where
  request : Request
  told : List Exchange
  rest : Dialogue Question Question.Answer (Except Error Reply)

structure System where
  store : Store
  clients : List Client

inductive Event where
  | begun (r : Request)
  /-- The client at a place in the list asks a question and gets the answer. -/
  | asked (client : ℕ) (x : Exchange)
  | deleted (id : UserId)

/-- A registration was given an identifier for a new user. -/
def Client.Issued (c : Client) (id : UserId) : Prop :=
  c.request.registers = true ∧ ⟨.freshId, id⟩ ∈ c.told

/-- One event. Others than the store may answer in any way, but no two registrations get the same
identifier. Only a user who is there can be deleted. -/
inductive Step (o : Oracle) : System → Event → System → Prop
  | begin (w : System) (r : Request) :
    Step o w (.begun r) ⟨w.store, w.clients ++ [⟨r, [], (r.action o).run⟩]⟩
  | ask {w : System} {i : ℕ} {r : Request} {told : List Exchange} {q : Question}
    {next : q.Answer → Dialogue Question Question.Answer (Except Error Reply)} {a : q.Answer}
    {s : Store} (hi : w.clients[i]? = some ⟨r, told, .ask q next⟩)
    (ha : Answered (fun _ => True) q w.store a s)
    (hfresh : ∀ id, r.registers = true → (⟨q, a⟩ : Exchange) = ⟨.freshId, id⟩ →
      ∀ c ∈ w.clients, ¬ c.Issued id) :
    Step o w (.asked i ⟨q, a⟩) ⟨s, w.clients.set i ⟨r, ⟨q, a⟩ :: told, next a⟩⟩
  | delete {w : System} {id : UserId} {u : User} (hu : w.store.user? id = some u) :
    Step o w (.deleted id) ⟨w.store.delete id, w.clients⟩

/-- Events one after another, the newest first, from an empty store on. -/
inductive Run (o : Oracle) : List Event → System → Prop
  | start : Run o [] ⟨.empty, []⟩
  | step {past : List Event} {w w' : System} {e : Event} (h : Run o past w)
    (he : Step o w e w') : Run o (e :: past) w'

/-- The key set that an event files. -/
def Event.filing? : Event → Option FiledKeys
  | .asked _ ⟨.store (.fileKeys f), .ok ()⟩ => some f
  | _ => none

/-- The user whom a successful look-up is about. -/
def found? : Exchange → Option UserId
  | ⟨.store (.findUser _), .ok u⟩ => some u.id
  | ⟨.store (.findOwner _), .ok u⟩ => some u.id
  | ⟨.store (.findKeys _), .ok f⟩ => some f.user
  | _ => none

variable {o : Oracle} {w w' : System} {s s' : Store} {e : Event} {past : List Event} {r : Request}
  {i : ℕ} {x : Exchange} {f : FiledKeys} {id : UserId}

/-! ### What one event does to the store -/

/-- The ways in which an event can change the store. -/
inductive Change (s : Store) : Event → Store → Prop
  | nothing {e : Event} (hfiling : e.filing? = none) (hdeletion : ∀ id, e ≠ .deleted id) :
    Change s e s
  | created {i : ℕ} {u : User} (hnew : s.user? u.id = none) (hlive : u.deleted = false) :
    Change s (.asked i ⟨.store (.createUser u), .ok ()⟩) (s.createUser u)
  | updated {i : ℕ} {u v : User} (hv : s.live? u.id = some v) :
    Change s (.asked i ⟨.store (.updateUser u), .ok ()⟩)
      (s.createUser { v with entity := u.entity, modified := u.modified })
  | filed {i : ℕ} {f : FiledKeys} {u : User} (hnew : s.filed? f.keys = none)
    (hu : s.user? f.user = some u) :
    Change s (.asked i ⟨.store (.fileKeys f), .ok ()⟩) { s with filed := s.filed ++ [f] }
  | deleted {id : UserId} {u : User} (hu : s.user? id = some u) :
    Change s (.deleted id) (s.createUser { u with deleted := true })

/-- Nobody is taken out of the store, and key sets stay filed as they are. -/
structure Grown (s s' : Store) : Prop where
  users : ∀ id u, s.user? id = some u → ∃ u', s'.user? id = some u'
  filed : ∀ keys f, s.filed? keys = some f → s'.filed? keys = some f

theorem grown_createUser (s : Store) (v : User) : Grown s (s.createUser v) where
  users id u hu := by
    rw [Store.user?_createUser]
    split_ifs
    · exact ⟨v, rfl⟩
    · exact ⟨u, hu⟩
  filed _ _ hf := hf

theorem Change.grown (h : Change s e s') : Grown s s' := by
  cases h with
  | nothing => exact ⟨fun _ u hu => ⟨u, hu⟩, fun _ _ hf => hf⟩
  | created | updated | deleted => exact grown_createUser s _
  | filed =>
    refine ⟨fun _ u hu => ⟨u, hu⟩, fun keys g hg => ?_⟩
    rw [Store.filed?_append, hg, Option.some_or]

/-- Whoever is in the store was there before or has just been put there. -/
theorem user?_of_createUser {u v : User} (hu : (s.createUser v).user? id = some u) :
    v.id = id ∨ s.user? id = some u := by
  rw [Store.user?_createUser] at hu
  split_ifs at hu with hid
  · exact .inl hid
  · exact .inr hu

/-- A user who is new in the store has just been created. -/
theorem Change.user_cases (h : Change s e s') {u : User} (hu : s'.user? id = some u) :
    (∃ v, s.user? id = some v) ∨
      ∃ i v, e = .asked i ⟨.store (.createUser v), .ok ()⟩ ∧ v.id = id := by
  cases h with
  | nothing | filed => exact .inl ⟨u, hu⟩
  | created =>
    rcases user?_of_createUser hu with hid | hu
    · exact .inr ⟨_, _, rfl, hid⟩
    · exact .inl ⟨u, hu⟩
  | @updated _ _ v hv =>
    obtain ⟨hv, -⟩ := Store.live?_eq_some.1 hv
    rcases user?_of_createUser hu with hid | hu
    · exact .inl ⟨v, by rw [← hid]; exact (Store.user?_eq_some hv).2 ▸ hv⟩
    · exact .inl ⟨u, hu⟩
  | @deleted _ v hv =>
    rcases user?_of_createUser hu with hid | hu
    · exact .inl ⟨v, by rw [← hid]; exact (Store.user?_eq_some hv).2 ▸ hv⟩
    · exact .inl ⟨u, hu⟩

/-- What the events tell of the store: each key set was filed once, for someone who is there, and
those are deleted who have been deleted. -/
structure Ledger (past : List Event) (s : Store) : Prop where
  filed_eq : past.filterMap Event.filing? = s.filed.reverse
  distinct : (s.filed.map (·.keys.bytes)).Nodup
  owned : ∀ f ∈ s.filed, ∃ u, s.user? f.user = some u
  deleted_iff : ∀ id, .deleted id ∈ past ↔ ∃ u, s.user? id = some u ∧ u.deleted = true

theorem ledger_empty : Ledger [] .empty :=
  ⟨rfl, List.nodup_nil, nofun, fun id => by simp [Store.user?, Store.empty]⟩

/-- Putting a user in the store files nothing, and deletes nobody but that user. -/
theorem Ledger.put (h : Ledger past s) {v : User} (hfiling : e.filing? = none)
    (hdeletion : ∀ id, .deleted id ∈ e :: past ↔
      if v.id = id then v.deleted = true else .deleted id ∈ past) :
    Ledger (e :: past) (s.createUser v) where
  filed_eq := by rw [List.filterMap_cons_none hfiling, h.filed_eq]; rfl
  distinct := h.distinct
  owned f hf :=
    let ⟨u, hu⟩ := h.owned f hf
    (grown_createUser s v).users f.user u hu
  deleted_iff id := by
    rw [hdeletion, Store.user?_createUser]
    split_ifs with hid
    · simp
    · exact h.deleted_iff id

theorem Ledger.step (h : Ledger past s) (he : Change s e s') : Ledger (e :: past) s' := by
  cases he with
  | nothing hfiling hdeletion =>
    refine ⟨by rw [List.filterMap_cons_none hfiling, h.filed_eq], h.distinct, h.owned, fun id => ?_⟩
    rw [List.mem_cons, ← h.deleted_iff]
    exact or_iff_right fun heq => hdeletion id heq.symm
  | @created i u hnew hlive =>
    refine h.put rfl fun id => ?_
    rw [List.mem_cons, or_iff_right nofun]
    split_ifs with hid
    · rw [h.deleted_iff, ← hid, hnew, hlive]
      simp
    · rfl
  | @updated i u v hv =>
    refine h.put rfl fun id => ?_
    obtain ⟨hv, hlive⟩ := Store.live?_eq_some.1 hv
    rw [List.mem_cons, or_iff_right nofun]
    split_ifs with hid
    · rw [h.deleted_iff, ← hid, (Store.user?_eq_some hv).2, hv]
      simp [hlive]
    · rfl
  | @deleted id u hu =>
    refine h.put rfl fun id' => ?_
    obtain ⟨-, rfl⟩ := Store.user?_eq_some hu
    rw [List.mem_cons]
    split_ifs with hid
    · simp [← hid]
    · exact or_iff_right fun heq => hid (Event.deleted.inj heq).symm
  | @filed i f u hnew hu =>
    refine ⟨?_, ?_, fun g hg => ?_, fun id => ?_⟩
    · have hfiling : Event.filing? (.asked i ⟨.store (.fileKeys f), .ok ()⟩) = some f := rfl
      rw [List.filterMap_cons_some hfiling, h.filed_eq, List.reverse_append]
      rfl
    · rw [List.map_append, List.nodup_append]
      refine ⟨h.distinct, List.nodup_singleton _, fun b hb b' hb' heq => ?_⟩
      obtain ⟨g, hg, rfl⟩ := List.mem_map.1 hb
      have hnone := List.find?_eq_none.1 hnew g hg
      simp only [List.map_cons, List.map_nil, List.mem_singleton] at hb'
      simp [heq, hb'] at hnone
    · rcases List.mem_append.1 hg with hg | hg
      · exact h.owned g hg
      · cases List.mem_singleton.1 hg
        exact ⟨u, hu⟩
    · rw [List.mem_cons, or_iff_right nofun]
      exact h.deleted_iff id

/-- A key set that is filed is found as such under its own bytes. -/
theorem Ledger.filed?_eq (h : Ledger past s) (hf : f ∈ s.filed) {keys : KeySet}
    (hkeys : keys.bytes = f.keys.bytes) : s.filed? keys = some f := by
  rw [Store.filed?, hkeys]
  exact Json.find?_eq_some_of_nodup h.distinct hf

/-- The owner of a key set can be looked up, or has been deleted. -/
theorem Ledger.live_cases (h : Ledger past s) (hf : f ∈ s.filed) :
    (∃ u, s.live? f.user = some u) ∨ s.live? f.user = none ∧ .deleted f.user ∈ past := by
  obtain ⟨u, hu⟩ := h.owned f hf
  cases hlive : s.live? f.user with
  | some v => exact .inl ⟨v, rfl⟩
  | none =>
    refine .inr ⟨rfl, (h.deleted_iff _).2 ⟨u, hu, ?_⟩⟩
    by_contra hdeleted
    rw [Store.live?_eq_some.2 ⟨hu, by simpa using hdeleted⟩] at hlive
    cases hlive

/-- A key set that is filed is found, unless its owner has been deleted. -/
theorem Ledger.findKeys_cases (h : Ledger past s) (hf : f ∈ s.filed) {keys : KeySet}
    (hkeys : keys.bytes = f.keys.bytes) : s.findKeys keys = .ok f ∨
      s.findKeys keys = .error (.notFound .keySet keys.text) ∧ .deleted f.user ∈ past := by
  have hfiled := h.filed?_eq hf hkeys
  rcases h.live_cases hf with hlive | ⟨hnone, hdeleted⟩
  · exact .inl (Store.findKeys_eq_ok.2 ⟨hfiled, hlive⟩)
  · refine .inr ⟨?_, hdeleted⟩
    simp [Store.findKeys, hfiled, Option.filter_some, hnone]

/-- So is its owner. -/
theorem Ledger.findOwner_cases (h : Ledger past s) (hf : f ∈ s.filed) {keys : KeySet}
    (hkeys : keys.bytes = f.keys.bytes) : (∃ u, s.findOwner keys = .ok u ∧ u.id = f.user) ∨
      s.findOwner keys = .error (.notFound .user keys.text) ∧ .deleted f.user ∈ past := by
  have hfiled := h.filed?_eq hf hkeys
  rcases h.live_cases hf with ⟨u, hlive⟩ | ⟨hnone, hdeleted⟩
  · exact .inl ⟨u, Store.findOwner_eq_ok.2 ⟨f, hfiled, hlive⟩,
      (Store.user?_eq_some (Store.live?_eq_some.1 hlive).1).2⟩
  · refine .inr ⟨?_, hdeleted⟩
    simp [Store.findOwner, hfiled, hnone]

theorem Ledger.live?_of_deleted (h : Ledger past s) (hid : .deleted id ∈ past) :
    s.live? id = none := by
  obtain ⟨u, hu, hdeleted⟩ := (h.deleted_iff id).1 hid
  rw [Store.live?, hu]
  simp [hdeleted]

theorem Ledger.mem_filed (h : Ledger past s)
    (hf : .asked i ⟨.store (.fileKeys f), .ok ()⟩ ∈ past) : f ∈ s.filed := by
  have hmem : f ∈ past.filterMap Event.filing? := List.mem_filterMap.2 ⟨_, hf, rfl⟩
  rw [h.filed_eq] at hmem
  exact List.mem_reverse.1 hmem

/-! ### What is told once and for all -/

/-- What an answer to a request tells of any later store. -/
def Lasts (r : Request) (s : Store) : Exchange → Prop
  | ⟨.store (.findUser id), .ok _⟩ => ∃ u, s.user? id = some u
  | ⟨.store (.findOwner keys), .ok u⟩ =>
    r.keySet? = some keys ∧ ∃ f, s.filed? keys = some f ∧ f.user = u.id
  | ⟨.store (.findKeys keys), .ok f⟩ => r.keySet? = some keys ∧ s.filed? keys = some f
  | _ => True

theorem Lasts.mono (h : Lasts r s x) (hs : Grown s s') : Lasts r s' x := by
  unfold Lasts at h ⊢
  split at h
  · obtain ⟨u, hu⟩ := h
    exact hs.users _ u hu
  · obtain ⟨hr, f, hf, howner⟩ := h
    exact ⟨hr, f, hs.filed _ f hf, howner⟩
  · exact ⟨h.1, hs.filed _ _ h.2⟩
  · trivial

theorem lasts_of_answered {q : Question} {a : q.Answer} {told : List Exchange}
    (hmay : r.May told q) (ha : Answered (fun _ => True) q s a s') : Lasts r s' ⟨q, a⟩ := by
  unfold Lasts
  split
  next id u heq =>
    cases heq
    have hfind : s.findUser id = .ok u := congrArg Prod.fst ha
    cases (congrArg Prod.snd ha : s = s')
    exact ⟨u, (Store.live?_eq_some.1 (Store.findUser_eq_ok.1 hfind)).1⟩
  next keys u heq =>
    cases heq
    have hfind : s.findOwner keys = .ok u := congrArg Prod.fst ha
    cases (congrArg Prod.snd ha : s = s')
    obtain ⟨f, hf, hlive⟩ := Store.findOwner_eq_ok.1 hfind
    exact ⟨hmay, f, hf, (Store.user?_eq_some (Store.live?_eq_some.1 hlive).1).2.symm⟩
  next keys f heq =>
    cases heq
    have hfind : s.findKeys keys = .ok f := congrArg Prod.fst ha
    cases (congrArg Prod.snd ha : s = s')
    exact ⟨hmay, (Store.findKeys_eq_ok.1 hfind).1⟩
  next => trivial

/-- A look-up that succeeds is about a user who is not deleted. -/
theorem live_of_found {q : Question} {a : q.Answer} (ha : Answered (fun _ => True) q s a s')
    (hfound : found? ⟨q, a⟩ = some id) : ∃ u, s.live? id = some u := by
  unfold found? at hfound
  split at hfound
  next id' u heq =>
    cases heq
    cases hfound
    have hfind : s.findUser id' = .ok u := congrArg Prod.fst ha
    have hlive := Store.findUser_eq_ok.1 hfind
    exact ⟨u, (Store.user?_eq_some (Store.live?_eq_some.1 hlive).1).2 ▸ hlive⟩
  next keys u heq =>
    cases heq
    cases hfound
    have hfind : s.findOwner keys = .ok u := congrArg Prod.fst ha
    obtain ⟨f, -, hlive⟩ := Store.findOwner_eq_ok.1 hfind
    exact ⟨u, (Store.user?_eq_some (Store.live?_eq_some.1 hlive).1).2 ▸ hlive⟩
  next keys f heq =>
    cases heq
    cases hfound
    have hfind : s.findKeys keys = .ok f := congrArg Prod.fst ha
    exact (Store.findKeys_eq_ok.1 hfind).2
  next => cases hfound

/-! ### Clients -/

/-- A client is told more and more, and stays with its request. -/
theorem Step.client_later (h : Step o w e w') {j : ℕ} {c : Client} (hj : w.clients[j]? = some c) :
    ∃ c', w'.clients[j]? = some c' ∧ c'.request = c.request ∧ c.told ⊆ c'.told := by
  cases h with
  | begin r =>
    have hlt := (List.getElem?_eq_some_iff.1 hj).1
    exact ⟨c, (List.getElem?_append_left hlt).trans hj, rfl, List.Subset.refl _⟩
  | delete => exact ⟨c, hj, rfl, List.Subset.refl _⟩
  | @ask i r told q next a s hi =>
    by_cases hij : i = j
    · subst hij
      cases hi.symm.trans hj
      have hlt := (List.getElem?_eq_some_iff.1 hi).1
      exact ⟨_, List.getElem?_set_self hlt, rfl, List.subset_cons_self _ _⟩
    · exact ⟨c, (List.getElem?_set_ne hij).trans hj, rfl, List.Subset.refl _⟩

/-- Each client is as it was before, or new, or the one that has just been told something. -/
theorem Step.client_cases (h : Step o w e w') {j : ℕ} {c : Client} (hj : w'.clients[j]? = some c) :
    w.clients[j]? = some c ∨ (∃ r, c = ⟨r, [], (r.action o).run⟩) ∨
      ∃ r told q next a, e = .asked j ⟨q, a⟩ ∧ w.clients[j]? = some ⟨r, told, .ask q next⟩ ∧
        c = ⟨r, ⟨q, a⟩ :: told, next a⟩ ∧ Answered (fun _ => True) q w.store a w'.store ∧
        ∀ id, r.registers = true → (⟨q, a⟩ : Exchange) = ⟨.freshId, id⟩ →
          ∀ c ∈ w.clients, ¬ c.Issued id := by
  cases h with
  | begin r =>
    rcases Nat.lt_or_ge j w.clients.length with hlt | hge
    · exact .inl ((List.getElem?_append_left hlt).symm.trans hj)
    · simp only [List.getElem?_append_right hge, List.getElem?_singleton] at hj
      split_ifs at hj
      cases hj
      exact .inr (.inl ⟨r, rfl⟩)
  | delete => exact .inl hj
  | @ask i r told q next a s hi ha hfresh =>
    by_cases hij : i = j
    · subst hij
      have hlt := (List.getElem?_eq_some_iff.1 hi).1
      cases (List.getElem?_set_self hlt).symm.trans hj
      exact .inr (.inr ⟨r, told, q, next, a, rfl, hi, rfl, ha, hfresh⟩)
    · exact .inl ((List.getElem?_set_ne hij).symm.trans hj)

/-- Whoever asks is a client that is told the answer. -/
theorem Step.asked {q : Question} {a : q.Answer} (h : Step o w (.asked i ⟨q, a⟩) w') :
    ∃ r told next, w.clients[i]? = some ⟨r, told, .ask q next⟩ ∧
      Answered (fun _ => True) q w.store a w'.store ∧
      w'.clients[i]? = some ⟨r, ⟨q, a⟩ :: told, next a⟩ := by
  cases h with
  | ask hi ha =>
    exact ⟨_, _, _, hi, ha, List.getElem?_set_self (List.getElem?_eq_some_iff.1 hi).1⟩

/-- What is known after any number of events. -/
structure Kept (past : List Event) (w : System) : Prop where
  ledger : Ledger past w.store
  obeys : ∀ (j : ℕ) (c : Client), w.clients[j]? = some c →
    Obeys c.request (fun _ _ => True) c.rest c.told
  issued : ∀ (j k : ℕ) (c c' : Client) (id : UserId), w.clients[j]? = some c →
    w.clients[k]? = some c' → c.Issued id → c'.Issued id → j = k
  /-- Whoever is in the store was put there by the registration with that identifier. -/
  created : ∀ id u, w.store.user? id = some u → ∃ (j : ℕ) (c : Client),
    w.clients[j]? = some c ∧ c.Issued id ∧ ∃ v a, ⟨.store (.createUser v), a⟩ ∈ c.told
  lasts : ∀ (j : ℕ) (c : Client), w.clients[j]? = some c →
    ∀ x ∈ c.told, Lasts c.request w.store x
  logged : ∀ j x, .asked j x ∈ past → ∃ c : Client, w.clients[j]? = some c ∧ x ∈ c.told

theorem kept_empty : Kept [] ⟨.empty, []⟩ where
  ledger := ledger_empty
  obeys j c hj := by cases hj
  issued j k c c' id hj := by cases hj
  created id u hu := by cases hu
  lasts j c hj := by cases hj
  logged j x hx := by cases hx

/-- A store that answers is changed as the request may change it. -/
theorem Kept.change_of_asked (h : Kept past w) {told : List Exchange} {q : Question}
    {next : q.Answer → Dialogue Question Question.Answer (Except Error Reply)} {a : q.Answer}
    (hi : w.clients[i]? = some ⟨r, told, .ask q next⟩)
    (ha : Answered (fun _ => True) q w.store a s) : Change w.store (.asked i ⟨q, a⟩) s := by
  have hmay : r.May told q := (h.obeys i _ hi).1
  cases q with
  | canceled | now | freshId =>
    cases ha
    exact .nothing rfl nofun
  | approve | signingBlock | formation =>
    cases ha.1
    exact .nothing rfl nofun
  | store q =>
    cases q with
    | findUser | findOwner | findKeys =>
      cases ha
      exact .nothing rfl nofun
    | createUser u =>
      cases ha
      obtain ⟨hr, hlive, hid, honce⟩ := hmay
      refine .created ?_ hlive
      cases hu : w.store.user? u.id with
      | none => rfl
      | some v =>
        obtain ⟨j, c, hj, hissued, v, b, hcreated⟩ := h.created u.id v hu
        cases h.issued j i c _ u.id hj hi hissued ⟨hr, hid⟩
        cases hj.symm.trans hi
        exact absurd hcreated (honce v b)
    | updateUser u =>
      cases hres : w.store.updateUser u with
      | error e =>
        have ha : w.store.changed (w.store.updateUser u) = (a, s) := ha
        rw [hres] at ha
        cases ha
        exact .nothing rfl nofun
      | ok s' =>
        have ha : w.store.changed (w.store.updateUser u) = (a, s) := ha
        rw [hres] at ha
        cases ha
        obtain ⟨v, hv, rfl⟩ := Store.updateUser_eq_ok hres
        exact .updated hv
    | fileKeys f =>
      have ha : w.store.changed (w.store.fileKeys f) = (a, s) := ha
      cases hres : w.store.fileKeys f with
      | error e =>
        rw [hres] at ha
        cases ha
        exact .nothing rfl nofun
      | ok s' =>
        rw [hres] at ha
        cases ha
        obtain ⟨hnew, rfl⟩ := Store.fileKeys_eq_ok hres
        obtain ⟨u, hu⟩ := hmay
        obtain ⟨v, hv⟩ := h.lasts i _ hi _ hu
        exact .filed hnew hv

theorem Kept.change (h : Kept past w) (he : Step o w e w') : Change w.store e w'.store := by
  cases he with
  | begin r => exact .nothing rfl nofun
  | ask hi ha => exact h.change_of_asked hi ha
  | @delete id u hu =>
    simp only [Store.delete, hu]
    exact .deleted hu

/-- Only a new identifier is issued. -/
theorem Step.issued_cases (h : Step o w e w') {j : ℕ} {c' : Client}
    (hj : w'.clients[j]? = some c') (hc : c'.Issued id) :
    (∃ c, w.clients[j]? = some c ∧ c.Issued id) ∨
      e = .asked j ⟨.freshId, id⟩ ∧ ∀ c ∈ w.clients, ¬ c.Issued id := by
  rcases h.client_cases hj with hold | ⟨r, rfl⟩ | ⟨r, told, q, next, a, he, hold, rfl, -, hfresh⟩
  · exact .inl ⟨c', hold, hc⟩
  · cases hc.2
  · rcases List.mem_cons.1 hc.2 with hnew | hmem
    · exact .inr ⟨hnew ▸ he, hfresh id hc.1 hnew.symm⟩
    · exact .inl ⟨_, hold, hc.1, hmem⟩

theorem Kept.step (h : Kept past w) (he : Step o w e w') : Kept (e :: past) w' := by
  have hchange := h.change he
  refine ⟨h.ledger.step hchange, fun j c hj => ?_, fun j k c c' id hj hk hc hc' => ?_,
    fun id u hu => ?_, fun j c hj x hx => ?_, fun j x hx => ?_⟩
  · rcases he.client_cases hj with hold | ⟨r, rfl⟩ | ⟨r, told, q, next, a, -, hold, rfl, -⟩
    · exact h.obeys j c hold
    · exact r.obeys o
    · exact (h.obeys j _ hold).2 a
  · rcases he.issued_cases hj hc with ⟨d, hd, hd'⟩ | ⟨hasked, hnew⟩
    · rcases he.issued_cases hk hc' with ⟨g, hg, hg'⟩ | ⟨-, hnew⟩
      · exact h.issued j k d g id hd hg hd' hg'
      · exact absurd hd' (hnew d (List.mem_of_getElem? hd))
    · rcases he.issued_cases hk hc' with ⟨g, hg, hg'⟩ | ⟨hasked', -⟩
      · exact absurd hg' (hnew g (List.mem_of_getElem? hg))
      · cases hasked.symm.trans hasked'
        rfl
  · rcases hchange.user_cases hu with ⟨v, hv⟩ | ⟨i, v, rfl, rfl⟩
    · obtain ⟨j, c, hj, hc, v, a, hcreated⟩ := h.created id v hv
      obtain ⟨c', hj', hrequest, htold⟩ := he.client_later hj
      exact ⟨j, c', hj', ⟨hrequest ▸ hc.1, htold hc.2⟩, v, a, htold hcreated⟩
    · obtain ⟨r, told, next, hi, -, hi'⟩ := he.asked
      obtain ⟨hr, -, hid, -⟩ := (h.obeys i _ hi).1
      exact ⟨i, _, hi', ⟨hr, List.mem_cons_of_mem _ hid⟩, v, _, List.mem_cons_self⟩
  · rcases he.client_cases hj with hold | ⟨r, rfl⟩ | ⟨r, told, q, next, a, -, hold, rfl, ha, -⟩
    · exact (h.lasts j c hold x hx).mono hchange.grown
    · cases hx
    · rcases List.mem_cons.1 hx with rfl | hx
      · exact lasts_of_answered (h.obeys j _ hold).1 ha
      · exact (h.lasts j _ hold x hx).mono hchange.grown
  · rcases List.mem_cons.1 hx with rfl | hx
    · obtain ⟨q, a⟩ := x
      obtain ⟨r, told, next, -, -, hi'⟩ := he.asked
      exact ⟨_, hi', List.mem_cons_self⟩
    · obtain ⟨c, hj, hmem⟩ := h.logged j x hx
      obtain ⟨c', hj', -, htold⟩ := he.client_later hj
      exact ⟨c', hj', htold hmem⟩

theorem Run.kept (h : Run o past w) : Kept past w := by
  induction h with
  | start => exact kept_empty
  | step _ he ih => exact ih.step he

/-- Every event happened in a system that the earlier ones had led to. -/
theorem Run.split {later earlier : List Event} (h : Run o (later ++ e :: earlier) w) :
    ∃ w₁ w₂, Run o earlier w₁ ∧ Step o w₁ e w₂ := by
  generalize hpast : later ++ e :: earlier = past at h
  induction h generalizing later with
  | start => simp at hpast
  | @step past w w' e' h he ih =>
    cases later with
    | nil =>
      cases hpast
      exact ⟨w, w', h, he⟩
    | cons e₁ later =>
      cases hpast
      exact ih rfl

end Attestor.Oracle.Concurrent
