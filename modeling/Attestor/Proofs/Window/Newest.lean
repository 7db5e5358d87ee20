import Attestor.Node.Basic
import Attestor.Proofs.Chain.Tree

/-! Windows on a tree of blocks. Headers of the tree move such a window about the tree without
ever leaving it, and linked headers, once one of them has found its parent, take the window along
to the last of them. When that is the newest block of a chain, the window is the end of it. -/

namespace Attestor.Window

/-- The newest blocks of a chain, as many as are wanted. -/
def newest (count : ℕ) (chain : List Header) : Window :=
  ⟨(chain.drop (chain.length - count)).map Header.id, .ofNat (chain.length - 1)⟩

/-- Blocks of a tree at their heights, each behind its parent. -/
structure InTree (T : BlockTree) (w : Window) : Prop where
  chain : w.hashes.IsChain fun parent block => T.parent block = parent
  block : ∀ i d, w.hashes[i]? = some d → T.Mem d ∧ T.height d + w.size = w.height.toNat + 1 + i

variable {T : BlockTree} {w v : Window} {h : Header} {headers chain : List Header} {n m : ℕ}

theorem inTree_empty : empty.InTree T := ⟨.nil, fun i d hd => by simp at hd⟩

/-- No block of the window lies below height zero. -/
theorem InTree.size_le (hw : w.InTree T) : w.size ≤ w.height.toNat + 1 := by
  cases hd : w.hashes[0]? with
  | none =>
    rw [List.getElem?_eq_none_iff] at hd
    exact hd.trans (Nat.zero_le _)
  | some d =>
    have := (hw.block 0 d hd).2
    omega

theorem InTree.trim (hw : w.InTree T) (n : ℕ) : (w.trim n).InTree T := by
  refine ⟨hw.chain.drop _, fun i d hd => ?_⟩
  rw [hashes_trim, List.getElem?_drop] at hd
  obtain ⟨hmem, hheight⟩ := hw.block _ d hd
  have hlt := (List.getElem?_eq_some_iff.1 hd).1
  refine ⟨hmem, ?_⟩
  rw [size_trim, height_trim]
  simp only [size] at hheight hlt ⊢
  omega

theorem InTree.cut (hw : w.InTree T) (i : ℕ) : (w.cut i).InTree T := by
  refine ⟨hw.chain.take _, fun j d hd => ?_⟩
  rw [hashes_cut, List.getElem?_take] at hd
  split at hd
  next hj =>
    obtain ⟨hmem, hheight⟩ := hw.block j d hd
    have hlt := (List.getElem?_eq_some_iff.1 hd).1
    refine ⟨hmem, ?_⟩
    rw [height_cut]
    simp only [size, hashes_cut, List.length_take] at hheight hlt ⊢
    omega
  next => cases hd

theorem InTree.height_last (hw : w.InTree T) {d : Digest} (hd : w.hashes.getLast? = some d) :
    T.Mem d ∧ T.height d = w.height.toNat := by
  rw [List.getLast?_eq_getElem?] at hd
  obtain ⟨hmem, hheight⟩ := hw.block _ d hd
  have hlt := (List.getElem?_eq_some_iff.1 hd).1
  simp only [size] at hheight
  exact ⟨hmem, by omega⟩

theorem InTree.within_mono {chain' : List Header} (hw : w.InTree (T.within chain))
    (hsub : chain ⊆ chain') : w.InTree (T.within chain') := by
  refine ⟨hw.chain, fun i d hd => ?_⟩
  obtain ⟨⟨hmem, hin⟩, hheight⟩ := hw.block i d hd
  exact ⟨⟨hmem, List.map_subset _ hsub hin⟩, hheight⟩

/-- The newest block of a window on a chain is where the chain has its height. -/
theorem InTree.getElem?_last (hw : w.InTree (T.within chain)) (hc : T.Branch chain) {d : Digest}
    (hd : w.hashes.getLast? = some d) : (chain.map Header.id)[w.height.toNat]? = some d := by
  obtain ⟨⟨-, hin⟩, hheight⟩ := hw.height_last hd
  obtain ⟨h, hh, rfl⟩ := List.mem_map.1 hin
  obtain ⟨i, hi⟩ := List.mem_iff_getElem?.1 hh
  have hplace : T.height h.id = w.height.toNat := hheight
  rw [← hplace, (hc.block i h hi).2, List.getElem?_map, hi, Option.map_some]

/-- No block is in the window twice: its blocks have different heights. -/
theorem InTree.nodup (hw : w.InTree T) : w.hashes.Nodup := by
  refine List.nodup_iff_getElem?_ne_getElem?.2 fun i j hij hj hsame => ?_
  have hi := List.getElem?_eq_getElem (hij.trans hj)
  have hlow := (hw.block i _ hi).2
  have hhigh := (hw.block j _ (hsame ▸ hi)).2
  omega

/-- A window on the tree is settled by its size and its newest block. -/
theorem InTree.eq_of_getLast? (hw : w.InTree T) (hv : v.InTree T) (hsize : w.size = v.size)
    {d : Digest} (hwlast : w.hashes.getLast? = some d) (hvlast : v.hashes.getLast? = some d) :
    w = v := by
  have hhashes : w.hashes = v.hashes :=
    eq_of_isChain hw.chain hv.chain hsize (hwlast.trans hvlast.symm)
  have hheight : w.height = v.height :=
    UInt32.toNat_inj.1 ((hw.height_last hwlast).2.symm.trans (hv.height_last hvlast).2)
  cases w
  cases hhashes
  cases hheight
  rfl

/-- A header of the tree whose parent is the newest block becomes the newest block. -/
theorem InTree.push (hw : w.InTree T) (hh : T.Has h) (hheight : T.height h.id < UInt32.size)
    (hlast : w.hashes.getLast? = some h.parent) :
    ∃ v, w.push h.id = .ok v ∧ v.InTree T ∧ v.hashes.getLast? = some h.id := by
  obtain ⟨hmem, hparent⟩ := hw.height_last hlast
  have hnext := T.height_eq h.id hh.1
  rw [hh.2] at hnext
  have hv : (UInt32.ofNat (w.height.toNat + 1)).toNat = w.height.toNat + 1 :=
    UInt32.toNat_ofNat_of_lt' (by have := hnext hmem; omega)
  refine ⟨⟨w.hashes ++ [h.id], .ofNat (w.height.toNat + 1)⟩, push_eq_ok.2 ⟨rfl, hv⟩,
    ⟨?_, fun j d hd => ?_⟩, List.getLast?_concat⟩
  · exact List.isChain_append.2
      ⟨hw.chain, .singleton _, by simp only [hlast]; simpa using hh.2⟩
  · simp only [size, List.length_append, List.length_singleton, hv]
    simp only at hd
    rcases Nat.lt_or_ge j w.hashes.length with hj | hj
    · rw [List.getElem?_append_left hj] at hd
      obtain ⟨hmem, hheight⟩ := hw.block j d hd
      simp only [size] at hheight
      exact ⟨hmem, by omega⟩
    · have hlt := (List.getElem?_eq_some_iff.1 hd).1
      rw [List.length_append, List.length_singleton] at hlt
      have hj : j = w.hashes.length := by omega
      rw [hj, List.getElem?_concat_length] at hd
      cases hd
      have := hnext hmem
      exact ⟨hh.1, by omega⟩

/-- A header of the tree that has its parent in the window becomes the newest block. -/
theorem InTree.extend (hw : w.InTree T) (hh : T.Has h) (hheight : T.height h.id < UInt32.size)
    {i : ℕ} (hi : w.hashes[i]? = some h.parent) :
    ∃ v, (w.cut i).push h.id = .ok v ∧ v.InTree T ∧ v.hashes.getLast? = some h.id :=
  (hw.cut i).push hh hheight (getLast?_cut hi)

/-- Headers of a tree take a window from one place in the tree to another. -/
theorem InTree.apply (hw : w.InTree T)
    (hh : ∀ h ∈ headers, T.Has h ∧ T.height h.id < UInt32.size) (n : ℕ) :
    ∃ v m, w.apply n headers = .ok (v, m) ∧ v.InTree T := by
  induction headers generalizing w n with
  | nil => exact ⟨w, n, rfl, hw⟩
  | cons h rest ih =>
    have hrest : ∀ h ∈ rest, T.Has h ∧ T.height h.id < UInt32.size :=
      fun g hg => hh g (List.mem_cons_of_mem h hg)
    cases hb : w.base? h with
    | none =>
      rw [apply_cons_of_none hb]
      exact ih hw hrest n
    | some base =>
      obtain ⟨i, hi, rfl⟩ := base?_eq_some hb
      obtain ⟨hhas, hheight⟩ := hh h List.mem_cons_self
      obtain ⟨v, hv, hin, -⟩ := hw.extend hhas hheight hi
      rw [apply_cons_of_some hb, hv]
      exact ih hin hrest (n + 1)

/-- Linked headers that start right behind the newest block all extend the window. -/
theorem getLast?_apply_of_getLast? {g : Header} (hrun : Header.Run (g :: headers))
    (hlast : w.hashes.getLast? = some g.id) (ha : w.apply n headers = .ok (v, m)) :
    v.hashes.getLast? = (g :: headers).getLast?.map Header.id := by
  induction headers generalizing g w n with
  | nil =>
    cases ha
    exact hlast
  | cons h rest ih =>
    obtain ⟨hlink, hrun⟩ := List.isChain_cons_cons.1 hrun
    rw [← hlink] at hlast
    rw [apply_cons_of_some (base?_of_getLast? hlast)] at ha
    cases hu : w.push h.id with
    | error e => rw [hu] at ha; cases ha
    | ok u =>
      rw [hu] at ha
      have hnext : u.hashes.getLast? = some h.id := by
        rw [(push_eq_ok.1 hu).1, List.getLast?_concat]
      rw [List.getLast?_cons_cons]
      exact ih hrun hnext ha

/-- Once one of some linked headers has found its parent the window ends with the last of them. -/
theorem getLast?_apply (hrun : Header.Run headers) (ha : w.apply n headers = .ok (v, m))
    (hm : m ≠ n) : v.hashes.getLast? = headers.getLast?.map Header.id := by
  induction headers generalizing w n with
  | nil =>
    cases ha
    exact absurd rfl hm
  | cons h rest ih =>
    cases hb : w.base? h with
    | none =>
      rw [apply_cons_of_none hb] at ha
      cases rest with
      | nil =>
        cases ha
        exact absurd rfl hm
      | cons g rest =>
        rw [List.getLast?_cons_cons]
        exact ih (List.isChain_cons_cons.1 hrun).2 ha hm
    | some base =>
      rw [apply_cons_of_some hb] at ha
      cases hu : base.push h.id with
      | error e => rw [hu] at ha; cases ha
      | ok u =>
        rw [hu] at ha
        have hlast : u.hashes.getLast? = some h.id := by
          rw [(push_eq_ok.1 hu).1, List.getLast?_concat]
        exact getLast?_apply_of_getLast? hrun hlast ha

section Newest

variable {count : ℕ}

@[simp] theorem size_newest (count : ℕ) (chain : List Header) :
    (newest count chain).size = min count chain.length := by
  simp only [newest, size, List.length_map, List.length_drop]
  omega

theorem trim_newest (count : ℕ) (chain : List Header) :
    (newest count chain).trim count = newest count chain := by
  rw [trim, size_newest, show min count chain.length - count = 0 by omega, List.drop_zero]

theorem height_newest (hc : T.Branch chain) (count : ℕ) :
    (newest count chain).height.toNat + 1 = chain.length := by
  have := hc.length_pos
  have hlt := hc.length_lt
  rw [newest, UInt32.toNat_ofNat_of_lt' (by omega)]
  omega

theorem inTree_newest (hc : T.Branch chain) (count : ℕ) : (newest count chain).InTree T := by
  refine ⟨?_, fun i d hd => ?_⟩
  · rw [newest, List.map_drop]
    exact hc.isChain.drop _
  · have hheight := height_newest hc count
    rw [hheight, size_newest]
    simp only [newest, List.getElem?_map, List.getElem?_drop, Option.map_eq_some_iff] at hd
    obtain ⟨h, hh, rfl⟩ := hd
    obtain ⟨hhas, hplace⟩ := hc.block _ h hh
    have hlt := (List.getElem?_eq_some_iff.1 hh).1
    exact ⟨hhas.1, by omega⟩

theorem getLast?_newest (hcount : 0 < count) (hne : chain ≠ []) :
    (newest count chain).hashes.getLast? = chain.getLast?.map Header.id := by
  have hpos := List.length_pos_iff.2 hne
  rw [newest, List.getLast?_map, List.getLast?_drop, if_neg (by omega)]

/-- A window of a tree that is as large as the chain allows and ends like it is its end. -/
theorem InTree.eq_newest (hw : w.InTree T) (hc : T.Branch chain) (hcount : 0 < count)
    (hlast : w.hashes.getLast? = chain.getLast?.map Header.id)
    (hsize : w.size = min count chain.length) : w = newest count chain := by
  have hend := hlast.trans (getLast?_newest hcount hc.ne_nil).symm
  rw [List.getLast?_eq_some_getLast hc.ne_nil] at hlast
  exact hw.eq_of_getLast? (inTree_newest hc count) (hsize.trans (size_newest count chain).symm)
    hlast (hend ▸ hlast)

theorem InTree.trim_eq_newest (hw : w.InTree T) (hc : T.Branch chain) (hcount : 0 < count)
    (hlast : w.hashes.getLast? = chain.getLast?.map Header.id) (hsize : count ≤ w.size) :
    w.trim count = newest count chain := by
  refine (hw.trim count).eq_newest hc hcount ?_ ?_
  · rw [hashes_trim, List.getLast?_drop, if_neg (by simp only [size] at hsize ⊢; omega), hlast]
  · have hle := hw.size_le
    rw [List.getLast?_eq_some_getLast hc.ne_nil] at hlast
    have hheight := (hw.height_last hlast).2
    have hlt := (hc.has_of_mem (List.getLast_mem hc.ne_nil)).2
    rw [size_trim]
    omega

/-- The newest headers that a node is asked for make the end of its chain. -/
theorem ofBatch_recent {node : Node.Memory} (hc : T.Branch node.headers) (hcount : 0 < count) :
    ofBatch (node.recent count) = .ok (newest count node.headers) := by
  have hpos := hc.length_pos
  have hlt := hc.length_lt
  have hheight := height_newest hc count
  refine ofBatch_eq_ok.2 ⟨hc.linked.drop _, rfl, .inr ⟨?_, ?_⟩⟩
  · rw [Node.Memory.recent, ne_eq, List.drop_eq_nil_iff]
    omega
  · rw [hheight, Node.Memory.recent, UInt32.toNat_ofNat_of_lt' (by omega), List.length_drop]
    omega

end Newest

end Attestor.Window
