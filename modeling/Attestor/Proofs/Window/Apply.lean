import Attestor.Window
import Mathlib

/-! How headers change a window. A header whose parent is in the window cuts the window behind that
parent and is put there; any other header is passed over. Cutting behind the newest block cuts
nothing, so extending a window is a case of moving it to another branch. What every such step
keeps is kept by a batch; linked blocks are, and that no block lies below height zero. -/

namespace Attestor

namespace HeaderBatch

theorem heightAfter_eq_ok {h k : UInt32} {n : ℕ} :
    heightAfter h n = .ok k ↔ k.toNat = h.toNat + n := by
  unfold heightAfter
  constructor
  · intro hk
    split at hk
    next hlt =>
      rw [← Except.ok.inj hk, UInt32.toNat_ofNat_of_lt' hlt]
    next => exact absurd hk (by simp)
  · intro hk
    have hlt := k.toNat_lt_size
    rw [if_pos (by omega), ← hk, UInt32.ofNat_toNat]

/-- The newest header of a batch that is not empty is as far above the first one as there are
others. -/
theorem finish_eq_ok_some {b : HeaderBatch} {k : UInt32} :
    b.finish = .ok (some k) ↔ b.headers ≠ [] ∧ k.toNat + 1 = b.start.toNat + b.headers.length := by
  cases hb : b.headers with
  | nil => simp [finish, hb]
  | cons h rest =>
    have hmap : b.finish = .ok (some k) ↔ heightAfter b.start rest.length = .ok k := by
      simp only [finish, hb]
      cases heightAfter b.start rest.length <;> simp [Except.map]
    rw [hmap, heightAfter_eq_ok, List.length_cons]
    simp only [ne_eq, reduceCtorEq, not_false_eq_true, true_and]
    omega

theorem finish_eq_ok_none {b : HeaderBatch} : b.finish = .ok none ↔ b.headers = [] := by
  cases hb : b.headers with
  | nil => simp [finish, hb]
  | cons h rest =>
    simp only [finish, hb, reduceCtorEq, iff_false]
    cases heightAfter b.start rest.length <;> simp [Except.map]

/-- A batch that ends at a height of 32 bits has its newest header there. -/
theorem finish_of_le {b : HeaderBatch} (hne : b.headers ≠ [])
    (hlen : b.start.toNat + b.headers.length ≤ UInt32.size) :
    b.finish = .ok (some (.ofNat (b.start.toNat + b.headers.length - 1))) := by
  have hpos := List.length_pos_iff.2 hne
  refine finish_eq_ok_some.2 ⟨hne, ?_⟩
  rw [UInt32.toNat_ofNat_of_lt' (by omega)]
  omega

end HeaderBatch

namespace Window

open HeaderBatch (heightAfter heightAfter_eq_ok)

@[simp] theorem hashes_empty : empty.hashes = [] := rfl

@[simp] theorem height_trim (w : Window) (n : ℕ) : (w.trim n).height = w.height := rfl

@[simp] theorem hashes_trim (w : Window) (n : ℕ) :
    (w.trim n).hashes = w.hashes.drop (w.size - n) := rfl

@[simp] theorem size_trim (w : Window) (n : ℕ) : (w.trim n).size = min n w.size := by
  simp only [size, hashes_trim, List.length_drop]
  omega

theorem trim_of_size_le {w : Window} {n : ℕ} (h : w.size ≤ n) : w.trim n = w := by
  rw [trim, Nat.sub_eq_zero_of_le h, List.drop_zero]

@[simp] theorem hashes_cut (w : Window) (i : ℕ) : (w.cut i).hashes = w.hashes.take (i + 1) := rfl

theorem push_eq_ok {w v : Window} {d : Digest} : w.push d = .ok v ↔
    v.hashes = w.hashes ++ [d] ∧ v.height.toNat = w.height.toNat + 1 := by
  rw [← heightAfter_eq_ok]
  cases v
  simp only [push]
  cases heightAfter w.height 1 <;> simp [Except.map, eq_comm]

/-- A header extends the window up to its parent, if its parent is in the window. -/
theorem base?_eq_some {w base : Window} {h : Header} (hb : w.base? h = some base) :
    ∃ i, w.hashes[i]? = some h.parent ∧ base = w.cut i := by
  unfold base? at hb
  split at hb
  next hlast =>
    rw [List.getLast?_eq_getElem?] at hlast
    refine ⟨w.hashes.length - 1, hlast, ?_⟩
    have hpos : w.hashes.length - 1 < w.hashes.length := (List.getElem?_eq_some_iff.1 hlast).1
    have hsize : w.hashes.length - 1 + 1 = w.hashes.length := by omega
    rw [← Option.some.inj hb, cut, size, hsize, List.take_length, Nat.sub_self, Nat.sub_zero,
      UInt32.ofNat_toNat]
  next =>
    obtain ⟨i, hi, rfl⟩ := Option.map_eq_some_iff.1 hb
    obtain ⟨hlt, hget, -⟩ := List.idxOf?_eq_some_iff.1 hi
    exact ⟨i, by rw [List.getElem?_eq_getElem hlt, hget], rfl⟩

theorem base?_of_getLast? {w : Window} {h : Header} (hlast : w.hashes.getLast? = some h.parent) :
    w.base? h = some w := if_pos hlast

theorem apply_cons_of_none {w : Window} {h : Header} (hb : w.base? h = none) (n : ℕ)
    (rest : List Header) : w.apply n (h :: rest) = w.apply n rest := by
  rw [apply, hb]

theorem apply_cons_of_some {w base : Window} {h : Header} (hb : w.base? h = some base) (n : ℕ)
    (rest : List Header) :
    w.apply n (h :: rest) = (base.push h.id).bind fun v => v.apply (n + 1) rest := by
  rw [apply, hb]
  rfl

/-- What a window keeps while it is cut behind the parent of a header and the header is put
there, it keeps through a batch. -/
theorem apply_induction {P : Window → Prop} {headers : List Header}
    (hstep : ∀ (w v : Window) (h : Header) (i : ℕ), P w → h ∈ headers →
      w.hashes[i]? = some h.parent → (w.cut i).push h.id = .ok v → P v)
    {w v : Window} {n m : ℕ} (hw : P w) (ha : w.apply n headers = .ok (v, m)) : P v := by
  induction headers generalizing w n with
  | nil =>
    cases ha
    exact hw
  | cons h rest ih =>
    have hrest : ∀ (w v : Window) (g : Header) (i : ℕ), P w → g ∈ rest →
        w.hashes[i]? = some g.parent → (w.cut i).push g.id = .ok v → P v :=
      fun w v g i hw hg => hstep w v g i hw (List.mem_cons_of_mem h hg)
    cases hb : w.base? h with
    | none =>
      rw [apply_cons_of_none hb] at ha
      exact ih hrest hw ha
    | some base =>
      rw [apply_cons_of_some hb] at ha
      obtain ⟨i, hi, rfl⟩ := base?_eq_some hb
      cases hp : (w.cut i).push h.id with
      | error e => rw [hp] at ha; cases ha
      | ok u =>
        rw [hp] at ha
        exact ih hrest (hstep w u h i hw List.mem_cons_self hi hp) ha

end Window

/-! ### Linked blocks

Every block stands behind its parent, and no block lies below height zero, so the height of the
newest block is a bound for the number of the others. Trimming, cutting and extending keep both,
and a batch of headers that makes a window makes one of this kind. -/

/-- Consecutive headers of which each names the one before it as its parent. -/
def Header.Run (headers : List Header) : Prop := headers.IsChain fun g h => h.parent = g.id

theorem Header.unlinked?_eq_none {headers : List Header} :
    unlinked? headers = none ↔ Run headers := by
  fun_induction unlinked? headers with
  | case1 g h rest hlink ih => simp [Run, ih, hlink]
  | case2 g h rest hlink => simp [Run, hlink]
  | case3 headers hcases =>
    match headers with
    | [] => simp [Run]
    | [h] => simp [Run]
    | g :: h :: rest => exact absurd rfl (hcases g h rest)

namespace Window

/-- Blocks that follow each other as `R` says, none of them below height zero. -/
structure Linked (R : Digest → Digest → Prop) (w : Window) : Prop where
  chain : w.hashes.IsChain R
  size_le : w.size ≤ w.height.toNat + 1

variable {R S : Digest → Digest → Prop} {w v : Window} {headers : List Header}

theorem linked_empty : empty.Linked R := ⟨.nil, Nat.zero_le _⟩

theorem Linked.mono (hw : w.Linked R) (hRS : ∀ a b, R a b → S a b) : w.Linked S :=
  ⟨hw.chain.imp fun _ _ => hRS _ _, hw.size_le⟩

theorem Linked.trim (hw : w.Linked R) (n : ℕ) : (w.trim n).Linked R := by
  refine ⟨hw.chain.drop _, ?_⟩
  have := hw.size_le
  rw [size_trim, height_trim]
  omega

/-- Nothing is lost from the height when a window is cut: as many blocks go as heights. -/
theorem height_cut (w : Window) (i : ℕ) :
    (w.cut i).height.toNat = w.height.toNat - (w.size - (i + 1)) := by
  have := w.height.toNat_lt_size
  rw [cut, UInt32.toNat_ofNat_of_lt' (by omega)]

theorem Linked.cut (hw : w.Linked R) (i : ℕ) : (w.cut i).Linked R := by
  refine ⟨hw.chain.take _, ?_⟩
  have := hw.size_le
  rw [height_cut]
  simp only [size, hashes_cut, List.length_take] at this ⊢
  omega

theorem Linked.push (hw : w.Linked R) {d : Digest} (hd : ∀ last ∈ w.hashes.getLast?, R last d)
    (hv : w.push d = .ok v) : v.Linked R := by
  obtain ⟨hhashes, hheight⟩ := push_eq_ok.1 hv
  have hsize := hw.size_le
  constructor
  · rw [hhashes]
    exact List.isChain_append.2 ⟨hw.chain, .singleton d, by simpa using hd⟩
  · simp only [size, hhashes, List.length_append, List.length_singleton] at hsize ⊢
    omega

theorem getLast?_cut {i : ℕ} {d : Digest} (h : w.hashes[i]? = some d) :
    (w.cut i).hashes.getLast? = some d := by
  have hlt := (List.getElem?_eq_some_iff.1 h).1
  rw [hashes_cut, List.getLast?_take]
  simp [h]

theorem Linked.apply {n m : ℕ} (hw : w.Linked R) (hR : ∀ h ∈ headers, R h.parent h.id)
    (ha : w.apply n headers = .ok (v, m)) : v.Linked R := by
  refine apply_induction (fun u v h i hu hh hi hp => ?_) hw ha
  refine (hu.cut i).push (fun last hlast => ?_) hp
  rw [getLast?_cut hi] at hlast
  cases hlast
  exact hR h hh

/-- The window of a batch holds its blocks up to the newest one. -/
theorem ofBatch_eq_ok {b : HeaderBatch} : ofBatch b = .ok w ↔ Header.Run b.headers ∧
    w.hashes = b.ids ∧ ((b.headers = [] ∧ w.height = 0) ∨
      (b.headers ≠ [] ∧ w.height.toNat + 1 = b.start.toNat + b.headers.length)) := by
  rw [← HeaderBatch.finish_eq_ok_some, ← Header.unlinked?_eq_none]
  unfold ofBatch
  cases hu : Header.unlinked? b.headers with
  | some pair => simp
  | none =>
    cases hf : b.finish with
    | error e =>
      have hne : b.headers ≠ [] := fun hnil => by
        rw [HeaderBatch.finish_eq_ok_none.2 hnil] at hf
        cases hf
      simp [hne]
    | ok height =>
      obtain ⟨hashes, k⟩ := w
      cases height with
      | none =>
        have hnil := HeaderBatch.finish_eq_ok_none.1 hf
        simp [hnil, eq_comm]
      | some j =>
        have hne := (HeaderBatch.finish_eq_ok_some.1 hf).1
        simp [hne, eq_comm]

theorem linked_ofBatch {b : HeaderBatch} (hR : ∀ h ∈ b.headers, R h.parent h.id)
    (hw : ofBatch b = .ok w) : w.Linked R := by
  obtain ⟨hrun, hhashes, hheight⟩ := ofBatch_eq_ok.1 hw
  constructor
  · rw [hhashes, HeaderBatch.ids, List.isChain_map]
    refine List.IsChain.imp_of_mem_imp (fun g h _ hh (hlink : h.parent = g.id) => ?_) hrun
    rw [← hlink]
    exact hR h hh
  · rw [size, hhashes, HeaderBatch.ids, List.length_map]
    rcases hheight with ⟨hnil, -⟩ | ⟨-, hheight⟩
    · simp [hnil]
    · omega

end Window

end Attestor
