import Attestor.Proofs.Tracker.Tree
import Attestor.Proofs.Tracker.Visible

/-! A tracker that is told of blocks of one tree. Batches come in any order and from any branch,
the node answers with any linked headers of the tree or not at all, and the window may be rebuilt
at any time; it stays on the tree. Once the node has settled for a chain, the next batch that ends
that chain leaves the newest blocks of it in the window, wherever the window was before. -/

namespace Attestor

variable {T : BlockTree}

/-- The headers of a batch are of the tree, and it starts at the height of the first. -/
structure BlockTree.Delivers (T : BlockTree) (b : HeaderBatch) : Prop where
  has : ∀ h ∈ b.headers, T.Has h ∧ T.height h.id < UInt32.size
  start : ∀ h ∈ b.headers.head?, T.height h.id = b.start.toNat

theorem Window.inTree_ofBatch {b : HeaderBatch} {w : Window} (hb : T.Delivers b)
    (hw : ofBatch b = .ok w) : w.InTree T := by
  obtain ⟨hrun, hhashes, hheight⟩ := ofBatch_eq_ok.1 hw
  have hhas : ∀ h ∈ b.headers, T.Has h := fun h hh => (hb.has h hh).1
  refine ⟨hhashes ▸ BlockTree.isChain_of_run hrun hhas, fun i d hd => ?_⟩
  rw [hhashes, HeaderBatch.ids, List.getElem?_map, Option.map_eq_some_iff] at hd
  obtain ⟨h, hi, rfl⟩ := hd
  have hplace := BlockTree.height_of_run hrun hhas hb.start hi
  refine ⟨(hhas h (List.mem_of_getElem? hi)).1, ?_⟩
  rw [hplace, size, hhashes, HeaderBatch.ids, List.length_map]
  rcases hheight with ⟨hnil, -⟩ | ⟨-, hheight⟩
  · rw [hnil] at hi
    cases hi
  · omega

/-- Nothing extends an empty window. -/
theorem Window.apply_empty (n : ℕ) (headers : List Header) :
    Window.empty.apply n headers = .ok (.empty, n) := by
  induction headers with
  | nil => rfl
  | cons h rest ih => exact (apply_cons_of_none rfl n rest).trans ih

namespace Tracker

variable {offset : ℕ} {t t' : Tracker} {node : Node.Memory}

/-- The states of a tracker that takes batches and rebuilds its window, while all that it hears of
is of one tree. -/
inductive Reached (T : BlockTree) (offset : ℕ) : Tracker → Prop
  | new : Reached T offset (Tracker.new offset)
  | handled {t t' : Tracker} {c : Call} (h : Reached T offset t) (hb : T.Delivers c.batch)
      (hr : ∀ b, c.recent = .ok b → T.Delivers b) (hc : (c.run t []).1 = some t') :
      Reached T offset t'
  | rebuilt {t t' : Tracker} {c : Call} (h : Reached T offset t)
      (hr : ∀ b, c.recent = .ok b → T.Delivers b)
      (hc : ((Prod.fst <$> t.rebuild).run c.answer []).1 = some t') : Reached T offset t'

theorem offset_settled {r : Except Node.Error HeaderBatch} (hs : t.settled r = some t') :
    t'.offset = t.offset := by
  cases r with
  | error e =>
    cases hs
    rfl
  | ok b =>
    simp only [settled] at hs
    split at hs <;> cases hs <;> rfl

/-- An answer of the tree makes a window on the tree, or none. -/
theorem inTree_settled {r : Except Node.Error HeaderBatch} (hw : t.window.InTree T)
    (hr : ∀ b, r = .ok b → T.Delivers b) (hs : t.settled r = some t') : t'.window.InTree T := by
  cases r with
  | error e =>
    cases hs
    exact hw
  | ok b =>
    simp only [settled] at hs
    split at hs
    next w hb =>
      cases hs
      exact (Window.inTree_ofBatch (hr b rfl) hb).trim _
    next =>
      cases hs
      exact hw
    next => cases hs

theorem Reached.inTree (hpos : 0 < offset) (h : Reached T offset t) :
    t.offset = offset ∧ t.window.InTree T := by
  induction h with
  | new => exact ⟨Nat.max_eq_left hpos, Window.inTree_empty⟩
  | @handled t t' c _ hb hr hc ih =>
    obtain ⟨hoffset, hw⟩ := ih
    obtain ⟨u, must, ha, ⟨-, rfl, -⟩ | ⟨-, -, hs, -⟩⟩ := Call.run_eq_some (Prod.ext hc rfl)
    · exact ⟨(offset_absorb ha).trans hoffset, inTree_absorb hw hb.has ha⟩
    · exact ⟨(offset_settled hs).trans ((offset_absorb ha).trans hoffset),
        inTree_settled (inTree_absorb hw hb.has ha) hr hs⟩
  | @rebuilt t t' c _ hr hc ih =>
    obtain ⟨hoffset, hw⟩ := ih
    rw [run_rebuild] at hc
    split at hc
    next =>
      cases hc
      exact ⟨hoffset, hw⟩
    next => exact ⟨(offset_settled hc).trans hoffset, inTree_settled hw hr hc⟩

/-- With an empty window the tracker has to rebuild it whatever batch it gets. -/
theorem absorb_of_empty {b : HeaderBatch} (hw : t.window = .empty) (hne : b.headers ≠ [])
    (hlen : b.start.toNat + b.headers.length ≤ UInt32.size) : t.absorb b = .ok (t, true) := by
  have happly : t.window.apply 0 b.headers = .ok (.empty, 0) := hw ▸ Window.apply_empty 0 _
  obtain ⟨u, must, ha⟩ := absorb_of_apply hne hlen happly
  rcases absorb_eq_ok ha with
    ⟨hnil, -⟩ | ⟨-, w, linked, happly', ⟨rfl, rfl, -⟩ | ⟨-, -, hlinked, -⟩⟩
  · exact absurd hnil hne
  · rw [ha, ← hw]
  · rw [happly] at happly'
    cases happly'
    exact absurd rfl hlinked

/-- Wherever the window was on the tree, a batch that ends the node's chain takes it to the end of
that chain; and any batch does if the window was empty. -/
theorem converges (hpos : 0 < offset) (ht : Reached T offset t) (hc : T.Branch node.headers)
    {c : Call} (hcanceled : c.canceled = false) (hrecent : c.recent = .ok (node.recent offset))
    (hne : c.batch.headers ≠ [])
    (hbatch : c.batch.headers <:+ node.headers ∧
        c.batch.start.toNat + c.batch.headers.length = node.headers.length ∨
      t.window = .empty ∧ c.batch.start.toNat + c.batch.headers.length ≤ UInt32.size)
    (delivered : List Header) :
    ∃ t', (c.run t delivered).1 = some t' ∧ t'.offset = offset ∧
      t'.window.hashes = (node.headers.drop (node.headers.length - offset)).map Header.id ∧
      t'.window.height.toNat + 1 = node.headers.length := by
  obtain ⟨rfl, hw⟩ := ht.inTree hpos
  have hend : ∃ t' s', c.run t delivered = (some t', s') ∧ t'.offset = t.offset ∧
      t'.window = .newest t.offset node.headers := by
    rcases hbatch with ⟨hsuffix, hlen⟩ | ⟨hempty, hlen⟩
    · have hlast : c.batch.headers.getLast? = node.headers.getLast? := by
        obtain ⟨before, hbefore⟩ := hsuffix
        rw [← hbefore, List.getLast?_append_of_ne_nil _ hne]
      have hlt := hc.length_lt
      obtain ⟨t', s', hrun, hoffset, -, hnewest⟩ := handle_part c.answer (fun _ => hcanceled)
        (fun _ => hrecent) hc hw hne (by omega) hsuffix.isInfix (delivered ++ c.batch.headers)
      exact ⟨t', s', hrun, hoffset, hnewest hlast⟩
    · obtain ⟨s', hrun⟩ := handle_rebuilt c.answer (fun _ => hcanceled) (fun _ => hrecent) hc
        (absorb_of_empty hempty hne hlen) (delivered ++ c.batch.headers)
      exact ⟨_, s', hrun, rfl, rfl⟩
  obtain ⟨t', s', hrun, hoffset, hwindow⟩ := hend
  refine ⟨t', by rw [hrun], hoffset, by rw [hwindow]; rfl, ?_⟩
  rw [hwindow, Window.height_newest hc]

open BlockTree (genesis left right fork branch_fork)

/-- The newest block of a node is delivered, which answers with it as well. -/
def childCall (child : Header) : Call := ⟨⟨1, [child]⟩, false, .ok ⟨1, [child]⟩⟩

theorem recent_childCall (child : Header) :
    (childCall child).recent = .ok ((Node.Memory.forked child).recent 1) := rfl

theorem delivers_child {child : Header} (hchild : child = left ∨ child = right) :
    fork.Delivers ⟨1, [child]⟩ := by
  have hplace : fork.Has child ∧ fork.height child.id = 1 := (branch_fork hchild).block 1 child rfl
  refine ⟨fun h hh => ?_, fun h hh => ?_⟩
  · cases List.mem_singleton.1 hh
    exact ⟨hplace.1, by rw [hplace.2]; decide⟩
  · cases hh
    exact hplace.2

theorem converges_after_fork : ∃ t t' : Tracker, Reached fork 1 t ∧ t.window.hashes = [left.id] ∧
    fork.Branch (Node.Memory.forked right).headers ∧ ((childCall right).run t []).1 = some t' ∧
    t'.window.hashes = [right.id] ∧ t'.window.height.toNat + 1 = 2 := by
  have hleft : fork.Branch (Node.Memory.forked left).headers := branch_fork (.inl rfl)
  have hright : fork.Branch (Node.Memory.forked right).headers := branch_fork (.inr rfl)
  obtain ⟨t, hrun, -, hhashes, -⟩ := converges Nat.one_pos .new hleft rfl (recent_childCall left)
    (List.cons_ne_nil _ _) (.inr ⟨rfl, by decide⟩) []
  have ht : Reached fork 1 t := .handled .new (delivers_child (.inl rfl))
    (fun b hb => by cases hb; exact delivers_child (.inl rfl)) hrun
  have hsuffix : [right] <:+ (Node.Memory.forked right).headers := List.suffix_cons genesis [right]
  obtain ⟨t', hrun', -, hhashes', hheight⟩ := converges Nat.one_pos ht hright rfl
    (recent_childCall right) (List.cons_ne_nil _ _) (.inl ⟨hsuffix, rfl⟩) []
  exact ⟨t, t', ht, hhashes, hright, hrun', hhashes', hheight⟩

end Tracker

end Attestor
