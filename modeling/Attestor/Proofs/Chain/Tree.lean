import Attestor.Proofs.Window.Apply

/-! Trees of blocks. A block's name settles its parent and its height, so a node that changes
its chain for another branch keeps to one tree. A window whose blocks stand in the tree at their
heights goes on doing so whatever headers of the tree it gets. It is then settled by its newest
block and its size alone: it is the end of any chain that ends with that block. -/

namespace Attestor

/-- Where each entry settles the one before it, two lists of one length that end alike are the
same. -/
theorem eq_of_isChain {α : Type} {f : α → α} {l l' : List α}
    (hl : l.IsChain fun a b => f b = a) (hl' : l'.IsChain fun a b => f b = a)
    (hlen : l.length = l'.length) (hlast : l.getLast? = l'.getLast?) : l = l' := by
  induction l using List.reverseRecOn generalizing l' with
  | nil => exact (List.length_eq_zero_iff.1 hlen.symm).symm
  | append_singleton l a ih =>
    rcases List.eq_nil_or_concat l' with rfl | ⟨k, b, rfl⟩
    · simp at hlen
    · rw [List.concat_eq_append] at hl' hlen hlast ⊢
      rw [List.getLast?_concat, List.getLast?_concat] at hlast
      cases hlast
      obtain ⟨hl, -, ha⟩ := List.isChain_append.1 hl
      obtain ⟨hk, -, hb⟩ := List.isChain_append.1 hl'
      have hlen : l.length = k.length := by simpa using hlen
      rw [ih hl hk hlen]
      cases hx : l.getLast? with
      | none =>
        rw [List.getLast?_eq_none_iff] at hx
        rw [hx, List.length_nil] at hlen
        rw [List.length_eq_zero_iff.1 hlen.symm, List.getLast?_nil]
      | some x =>
        cases hy : k.getLast? with
        | none =>
          rw [List.getLast?_eq_none_iff] at hy
          rw [hy, List.length_nil, List.length_eq_zero_iff] at hlen
          rw [hlen, List.getLast?_nil] at hx
          cases hx
        | some y => rw [← ha x hx a rfl, ← hb y hy a rfl]

/-- Blocks by their names, of which some are there, each with a parent and a height. -/
structure BlockTree where
  Mem : Digest → Prop
  parent : Digest → Digest
  height : Digest → ℕ
  height_eq : ∀ d, Mem d → Mem (parent d) → height d = height (parent d) + 1

namespace BlockTree

/-- The block of a header is in the tree, behind the parent that the header names. -/
def Has (T : BlockTree) (h : Header) : Prop := T.Mem h.id ∧ T.parent h.id = h.parent

/-- A node's chain: linked headers of the tree, each at the place of its height, the newest below
the last height of 32 bits. -/
structure Branch (T : BlockTree) (chain : List Header) : Prop where
  ne_nil : chain ≠ []
  linked : Header.Run chain
  block : ∀ i h, chain[i]? = some h → T.Has h ∧ T.height h.id = i
  length_lt : chain.length < UInt32.size

variable {T : BlockTree} {chain chain' : List Header}

theorem Branch.length_pos (hc : T.Branch chain) : 0 < chain.length :=
  List.length_pos_iff.2 hc.ne_nil

theorem Branch.has_of_mem (hc : T.Branch chain) {h : Header} (hh : h ∈ chain) :
    T.Has h ∧ T.height h.id < chain.length := by
  obtain ⟨i, hi⟩ := List.mem_iff_getElem?.1 hh
  obtain ⟨hhas, hheight⟩ := hc.block i h hi
  exact ⟨hhas, hheight.trans_lt (List.getElem?_eq_some_iff.1 hi).1⟩

/-- From one linked block to the next, the tree's parent is the block before. -/
theorem isChain_of_run (hrun : Header.Run chain) (hhas : ∀ h ∈ chain, T.Has h) :
    (chain.map Header.id).IsChain fun a b => T.parent b = a := by
  rw [List.isChain_map]
  refine List.IsChain.imp_of_mem_imp (fun g h _ hh (hlink : h.parent = g.id) => ?_) hrun
  rw [(hhas h hh).2, hlink]

/-- Linked blocks stand one above the other. -/
theorem height_of_run (hrun : Header.Run chain) (hhas : ∀ h ∈ chain, T.Has h) {n : ℕ}
    (hfirst : ∀ h ∈ chain.head?, T.height h.id = n) {i : ℕ} {h : Header}
    (hi : chain[i]? = some h) : T.height h.id = n + i := by
  induction i generalizing h with
  | zero => exact hfirst h (by rw [List.head?_eq_getElem?, hi]; rfl)
  | succ i ih =>
    obtain ⟨hlt, rfl⟩ := List.getElem?_eq_some_iff.1 hi
    have hprev : chain[i]? = some chain[i] := List.getElem?_eq_getElem (by omega)
    have hlink : T.parent chain[i + 1].id = chain[i].id :=
      (hhas _ (List.getElem_mem hlt)).2.trans (hrun.getElem i hlt)
    have hheight := T.height_eq _ (hhas _ (List.getElem_mem hlt)).1
      (hlink ▸ (hhas _ (List.mem_of_getElem? hprev)).1)
    rw [hheight, hlink, ih hprev, Nat.add_assoc]

theorem Branch.isChain (hc : T.Branch chain) :
    (chain.map Header.id).IsChain fun a b => T.parent b = a :=
  isChain_of_run hc.linked fun _ hh => (hc.has_of_mem hh).1

/-- Chains that have a block in common are the same below it. -/
theorem Branch.eq_below (hc : T.Branch chain) (hc' : T.Branch chain') {n : ℕ} {g h : Header}
    (hg : chain[n]? = some g) (hh : chain'[n]? = some h) (hid : g.id = h.id) {i : ℕ}
    (hi : i ≤ n) : (chain.map Header.id)[i]? = (chain'.map Header.id)[i]? := by
  have hlt := (List.getElem?_eq_some_iff.1 hg).1
  have hlt' := (List.getElem?_eq_some_iff.1 hh).1
  have hlast : ((chain.map Header.id).take (n + 1)).getLast? =
      ((chain'.map Header.id).take (n + 1)).getLast? := by
    simp only [List.getLast?_take, Nat.add_one_ne_zero, if_false, Nat.add_sub_cancel,
      List.getElem?_map, hg, hh, Option.map_some, Option.some_or, hid]
  have heq : (chain.map Header.id).take (n + 1) = (chain'.map Header.id).take (n + 1) :=
    eq_of_isChain (hc.isChain.take _) (hc'.isChain.take _) (by simp; omega) hlast
  have hget := congrArg (·[i]?) heq
  simpa only [List.getElem?_take_of_lt (Nat.lt_succ_of_le hi)] using hget

/-- The blocks of a tree that are on a chain. -/
def within (T : BlockTree) (chain : List Header) : BlockTree where
  Mem d := T.Mem d ∧ d ∈ chain.map Header.id
  parent := T.parent
  height := T.height
  height_eq d hd hparent := T.height_eq d hd.1 hparent.1

theorem Branch.within (hc : T.Branch chain) (hsub : chain ⊆ chain') :
    (T.within chain').Branch chain where
  ne_nil := hc.ne_nil
  linked := hc.linked
  block i h hh := by
    obtain ⟨⟨hmem, hparent⟩, hheight⟩ := hc.block i h hh
    have hin : h.id ∈ chain'.map Header.id :=
      List.mem_map_of_mem (hsub (List.mem_of_getElem? hh))
    exact ⟨⟨⟨hmem, hin⟩, hparent⟩, hheight⟩
  length_lt := hc.length_lt

section Path

variable {root : Digest} {blocks : List Digest}

/-- The tree of blocks one above the other; the parent of the lowest is not among them. -/
def path (root : Digest) (blocks : List Digest) (hdistinct : (root :: blocks).Nodup) :
    BlockTree where
  Mem d := d ∈ blocks
  parent d := (root :: blocks)[blocks.idxOf d]?.getD root
  height d := blocks.idxOf d
  height_eq d hd hparent := by
    obtain ⟨hroot, hblocks⟩ := List.nodup_cons.1 hdistinct
    have hlt := List.idxOf_lt_length_iff.2 hd
    cases hi : blocks.idxOf d with
    | zero =>
      rw [hi] at hparent
      exact absurd hparent hroot
    | succ i =>
      have hlow : i < blocks.length := by omega
      rw [List.getElem?_cons_succ, List.getElem?_eq_getElem hlow, Option.getD_some,
        hblocks.idxOf_getElem]

theorem path_at (hdistinct : (root :: blocks).Nodup) {i : ℕ} {d : Digest}
    (hd : blocks[i]? = some d) : (path root blocks hdistinct).Mem d ∧
      (path root blocks hdistinct).height d = i ∧
      some ((path root blocks hdistinct).parent d) = (root :: blocks)[i]? := by
  obtain ⟨hlt, rfl⟩ := List.getElem?_eq_some_iff.1 hd
  have hplace := (List.nodup_cons.1 hdistinct).2.idxOf_getElem i hlt
  have hlow : i < (root :: blocks).length := by
    rw [List.length_cons]
    omega
  refine ⟨List.getElem_mem hlt, hplace, ?_⟩
  simp only [path, hplace, List.getElem?_eq_getElem hlow, Option.getD_some]

end Path

/-- A block without a parent. -/
def genesis : Header := ⟨1, Digest.zero, Digest.zero, 0, 0, 0⟩

/-- Two blocks on top of that one. -/
def left : Header := { genesis with parent := genesis.id }

def right : Header := { left with nonce := 1 }

theorem nodup_fork : [Digest.zero, genesis.id, left.id, right.id].Nodup := by decide +kernel

theorem id_genesis_ne_zero : Digest.zero ≠ genesis.id := fun h => by
  have hdistinct := nodup_fork
  simp [h] at hdistinct

/-- The tree of the first block alone. -/
def ofGenesis : BlockTree where
  Mem d := d = genesis.id
  parent _ := Digest.zero
  height _ := 0
  height_eq _ _ h := absurd h id_genesis_ne_zero

theorem branch_genesis : ofGenesis.Branch [genesis] where
  ne_nil := by simp
  linked := .singleton _
  block i h hh := by
    cases i with
    | zero =>
      cases hh
      exact ⟨⟨rfl, rfl⟩, rfl⟩
    | succ i => cases hh
  length_lt := by decide

/-- The tree of the three blocks, which forks at once. -/
def fork : BlockTree where
  Mem d := d = genesis.id ∨ d = left.id ∨ d = right.id
  parent d := if d = genesis.id then Digest.zero else genesis.id
  height d := if d = genesis.id then 0 else 1
  height_eq d hd hparent := by
    by_cases hroot : d = genesis.id
    · have hzero := nodup_fork
      rw [if_pos hroot] at hparent
      rcases hparent with h | h | h <;> simp [h] at hzero
    · rw [if_neg hroot, if_neg hroot, if_pos rfl]

theorem id_ne_genesis {child : Header} (hchild : child = left ∨ child = right) :
    child.id ≠ genesis.id := by
  have hdistinct := nodup_fork
  simp only [List.nodup_cons, List.mem_cons, not_or] at hdistinct
  rcases hchild with rfl | rfl
  · exact Ne.symm hdistinct.2.1.1
  · exact Ne.symm hdistinct.2.1.2.1

/-- Either child makes a chain with the first block. -/
theorem branch_fork {child : Header} (hchild : child = left ∨ child = right) :
    fork.Branch [genesis, child] := by
  have hparent : child.parent = genesis.id := by rcases hchild with rfl | rfl <;> rfl
  have hne := id_ne_genesis hchild
  refine ⟨by simp, List.isChain_pair.2 hparent, fun i h hh => ?_, by
    rw [List.length_cons, List.length_singleton]; decide⟩
  match i with
  | 0 =>
    cases hh
    exact ⟨⟨.inl rfl, if_pos rfl⟩, if_pos rfl⟩
  | 1 =>
    cases hh
    exact ⟨⟨.inr (hchild.imp (congrArg _) (congrArg _)), (if_neg hne).trans hparent.symm⟩,
      if_neg hne⟩
  | i + 2 => cases hh

end BlockTree

end Attestor
