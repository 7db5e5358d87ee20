import Attestor.Proofs.Entity.Bytes
import Attestor.Proofs.Key.Bytes
import Attestor.Store

/-! What the operations of the store leave to be found. A user who is put in the store takes the
place of nobody else, a deletion keeps the user's place, and key sets are only ever added. -/

namespace Attestor.Store

variable {s s' : Store} {u v : User} {f g : FiledKeys} {id : UserId} {keys : KeySet}

/-! ### Users -/

theorem user?_eq_some (h : s.user? id = some u) : u ∈ s.users ∧ u.id = id := by
  unfold user? at h
  exact ⟨List.mem_of_find?_eq_some h, by simpa using List.find?_some h⟩

theorem live?_eq_some : s.live? id = some u ↔ s.user? id = some u ∧ u.deleted = false := by
  rw [live?, Option.filter_eq_some_iff, Bool.not_eq_true']

theorem find?_put (u : User) (us : List User) (id : UserId) :
    (put u us).find? (·.id = id) = if u.id = id then some u else us.find? (·.id = id) := by
  induction us with
  | nil =>
    rw [put]
    split_ifs with hu
    · exact List.find?_cons_of_pos (decide_eq_true hu)
    · exact List.find?_cons_of_neg (by simpa using hu)
  | cons v us ih =>
    rw [put]
    split_ifs with hv hu hu
    · exact List.find?_cons_of_pos (decide_eq_true hu)
    · have hv' : ¬ v.id = id := hv ▸ hu
      rw [List.find?_cons_of_neg (by simpa using hu), List.find?_cons_of_neg (by simpa using hv')]
    · have hv' : ¬ v.id = id := fun h => hv (h.trans hu.symm)
      rw [List.find?_cons_of_neg (by simpa using hv'), ih, if_pos hu]
    · rw [List.find?_cons, List.find?_cons, ih, if_neg hu]

theorem mem_of_mem_put {us : List User} (hv : v ∈ put u us) : v = u ∨ v ∈ us := by
  induction us with
  | nil => exact .inl (List.mem_singleton.1 hv)
  | cons w us ih =>
    rw [put] at hv
    split_ifs at hv
    · exact (List.mem_cons.1 hv).imp_right (List.mem_cons_of_mem w)
    · rcases List.mem_cons.1 hv with rfl | hv
      · exact .inr List.mem_cons_self
      · exact (ih hv).imp_right (List.mem_cons_of_mem w)

theorem nodup_put {us : List User} (hus : (us.map User.id).Nodup) (u : User) :
    ((put u us).map User.id).Nodup := by
  induction us with
  | nil => exact List.nodup_singleton u.id
  | cons w us ih =>
    obtain ⟨hnew, hus'⟩ := List.nodup_cons.1 hus
    rw [put]
    split_ifs with hw
    · rwa [List.map_cons, ← hw]
    · refine List.nodup_cons.2 ⟨fun hmem => ?_, ih hus'⟩
      obtain ⟨x, hx, hid⟩ := List.mem_map.1 hmem
      rcases mem_of_mem_put hx with rfl | hx
      · exact hw hid.symm
      · exact hnew (List.mem_map.2 ⟨x, hx, hid⟩)

theorem mem_put (u : User) (us : List User) : u ∈ put u us := by
  induction us with
  | nil => exact List.mem_singleton_self u
  | cons w us ih =>
    rw [put]
    split_ifs
    · exact List.mem_cons_self
    · exact List.mem_cons_of_mem w ih

theorem mem_put_cases {us : List User} (hus : (us.map User.id).Nodup) (hv : v ∈ put u us) :
    v = u ∨ (v ∈ us ∧ v.id ≠ u.id) := by
  by_cases hid : v.id = u.id
  · exact .inl (List.inj_on_of_nodup_map (nodup_put hus u) hv (mem_put u us) hid)
  · exact (mem_of_mem_put hv).imp_right fun hv => ⟨hv, hid⟩

theorem user?_createUser (s : Store) (u : User) (id : UserId) :
    (s.createUser u).user? id = if u.id = id then some u else s.user? id :=
  find?_put u s.users id

/-- Whether putting a user in the store puts it in the place of none or of the same key. -/
def Admits (s : Store) (u : User) : Prop :=
  ∀ v, s.user? u.id = some v → v.publicKey = u.publicKey

theorem admits_of_user? (h : s.user? id = some v) (hid : u.id = v.id)
    (hkey : u.publicKey = v.publicKey) : s.Admits u := by
  intro w hw
  rw [hid, (user?_eq_some h).2, h] at hw
  cases hw
  exact hkey.symm

theorem user?_of_admits (hs : s.Admits v) (hu : s.user? id = some u) :
    ∃ u', (s.createUser v).user? id = some u' ∧ u'.id = u.id ∧ u'.publicKey = u.publicKey := by
  rw [user?_createUser]
  split_ifs with hid
  · exact ⟨v, rfl, hid.trans (user?_eq_some hu).2.symm, (hs u (hid ▸ hu)).symm⟩
  · exact ⟨u, hu, rfl, rfl⟩

theorem findUser_eq_ok : s.findUser id = .ok u ↔ s.live? id = some u := by
  rw [findUser]
  cases s.live? id <;> simp

theorem isNotFound_of_findUser {e : Error} (h : s.findUser id = .error e) :
    e.isNotFound = true := by
  unfold findUser at h
  split at h <;> cases h
  rfl

theorem updateUser_eq_ok (h : s.updateUser u = .ok s') :
    ∃ v, s.live? u.id = some v ∧
      s' = s.createUser { v with entity := u.entity, modified := u.modified } := by
  unfold updateUser at h
  split at h <;> cases h
  exact ⟨_, by assumption, rfl⟩

theorem isNotFound_of_updateUser {e : Error} (h : s.updateUser u = .error e) :
    e.isNotFound = true := by
  unfold updateUser at h
  split at h <;> cases h
  rfl

/-- A deletion puts the user back, marked as deleted. -/
theorem delete_cases (s : Store) (id : UserId) :
    s.delete id = s ∨
      ∃ u, s.user? id = some u ∧ s.delete id = s.createUser { u with deleted := true } := by
  unfold delete
  cases h : s.user? id with
  | none => exact .inl rfl
  | some u => exact .inr ⟨u, rfl, rfl⟩

/-! ### Key sets -/

theorem filed?_eq_some (h : s.filed? keys = some f) : f ∈ s.filed ∧ f.keys = keys := by
  unfold filed? at h
  exact ⟨List.mem_of_find?_eq_some h, KeySet.bytes_inj.1 (by simpa using List.find?_some h)⟩

theorem filed?_append (s : Store) (f : FiledKeys) (keys : KeySet) :
    filed? { s with filed := s.filed ++ [f] } keys =
      (s.filed? keys).or (if f.keys = keys then some f else none) := by
  unfold filed?
  rw [List.find?_append, List.find?_singleton]
  simp only [decide_eq_true_eq, KeySet.bytes_inj]

theorem fileKeys_eq_ok (h : s.fileKeys f = .ok s') :
    s.filed? f.keys = none ∧ s' = { s with filed := s.filed ++ [f] } := by
  unfold fileKeys at h
  split_ifs at h with hf
  exact ⟨by simpa using hf, (Except.ok.inj h).symm⟩

theorem fileKeys_eq_error {e : Error} (h : s.fileKeys f = .error e) : e = .keySetExists := by
  unfold fileKeys at h
  split_ifs at h
  exact (Except.error.inj h).symm

theorem findOwner_eq_ok :
    s.findOwner keys = .ok u ↔ ∃ f, s.filed? keys = some f ∧ s.live? f.user = some u := by
  rw [← Option.bind_eq_some_iff, findOwner]
  cases (s.filed? keys).bind fun f => s.live? f.user <;> simp

theorem isNotFound_of_findOwner {e : Error} (h : s.findOwner keys = .error e) :
    e.isNotFound = true := by
  unfold findOwner at h
  split at h <;> cases h
  rfl

theorem findKeys_eq_ok :
    s.findKeys keys = .ok f ↔ s.filed? keys = some f ∧ ∃ u, s.live? f.user = some u := by
  have hfound : ((s.filed? keys).filter fun f => (s.live? f.user).isSome) = some f ↔
      s.filed? keys = some f ∧ ∃ u, s.live? f.user = some u := by
    rw [Option.filter_eq_some_iff, Option.isSome_iff_exists]
  rw [← hfound, findKeys]
  cases (s.filed? keys).filter fun f => (s.live? f.user).isSome <;> simp

theorem isNotFound_of_findKeys {e : Error} (h : s.findKeys keys = .error e) :
    e.isNotFound = true := by
  unfold findKeys at h
  split at h <;> cases h
  rfl

end Attestor.Store
