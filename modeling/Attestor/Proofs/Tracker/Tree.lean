import Attestor.Proofs.Tracker.Handle
import Attestor.Proofs.Window.Newest

/-! What headers of a tree do to a tracker. Its window stays on the tree, also when it is rebuilt
from the newest headers of a chain; and a part of the node's chain that reaches its end leaves the
end of the chain in the window. -/

namespace Attestor.Node

/-! ### Nodes

A node that keeps its chain in memory refuses every call while it is offline. Else the calls for
heights of the chain and for its blocks succeed, and its newest headers make the end of the
chain. -/

/-- A call that failed. -/
def Question.failed (e : Error) : (q : Question) → q.Answer
  | .tip | .hashAt _ | .headers _ _ | .block _ | .recent _ => .error e

namespace Memory

variable {T : BlockTree} {node : Memory}

/-- The answer to a call that does not fail. -/
def reply (m : Memory) : (q : Question) → q.Answer
  | .tip => m.tip
  | .hashAt height => m.hashAt height
  | .headers first last => m.range first last
  | .block id => m.block id
  | .recent count => .ok (m.recent count)

theorem answer_eq (m : Memory) (q : Question) :
    m.answer q = if m.offline then q.failed refusal else m.reply q := by
  cases q <;> rfl

theorem tip_eq_ok (hc : T.Branch node.headers) :
    ∃ tip, node.tip = .ok tip ∧ tip.toNat + 1 = node.headers.length := by
  have hpos := hc.length_pos
  have hcount : (UInt32.ofNat node.headers.length).toNat = node.headers.length :=
    UInt32.toNat_ofNat_of_lt' hc.length_lt
  have hne : UInt32.ofNat node.headers.length ≠ 0 := fun hzero => by
    rw [hzero] at hcount
    exact hpos.ne hcount
  have hle : (1 : UInt32) ≤ UInt32.ofNat node.headers.length := by
    rw [UInt32.le_iff_toNat_le, hcount]
    exact hpos
  refine ⟨_, by rw [tip, if_neg hne], ?_⟩
  rw [UInt32.toNat_sub_of_le _ _ hle, hcount]
  exact Nat.sub_add_cancel hpos

/-- A range of heights of the chain is a part of it, up to the block at the last height. -/
theorem range_eq_ok {first last : UInt32} (hle : first.toNat ≤ last.toNat)
    (hlast : last.toNat < node.headers.length) :
    ∃ part, node.range first last = .ok ⟨first, part⟩ ∧ part <:+: node.headers ∧
      part.length = last.toNat + 1 - first.toNat ∧
      ∀ i, first.toNat ≤ i → i ≤ last.toNat → part[i - first.toNat]? = node.headers[i]? := by
  refine ⟨_, if_neg (by omega),
    (List.drop_suffix _ _).isInfix.trans (List.take_prefix _ _).isInfix, ?_, fun i hi hi' => ?_⟩
  · rw [List.length_drop, List.length_take]
    omega
  · rw [List.getElem?_drop, List.getElem?_take_of_lt (by omega)]
    congr 1
    omega

theorem getLast?_of_range {first last : UInt32} {part : List Header}
    (hle : first.toNat ≤ last.toNat) (hlast : last.toNat < node.headers.length)
    (h : node.range first last = .ok ⟨first, part⟩) :
    part.getLast? = node.headers[last.toNat]? := by
  obtain ⟨part', hrange, -, hlength, hget⟩ := range_eq_ok hle hlast
  cases h.symm.trans hrange
  rw [← hget _ hle le_rfl, List.getLast?_eq_getElem?, hlength]
  congr 1
  omega

theorem lt_length_of_range {first last : UInt32} {b : HeaderBatch}
    (h : node.range first last = .ok b) : last.toNat < node.headers.length := by
  simp only [range] at h
  split at h
  · cases h
  · omega

theorem block_eq_ok {h : Header} (hh : h ∈ node.headers) : ∃ b, node.block h.id = .ok b := by
  have hfound : (node.headers.find? (·.id = h.id)).isSome :=
    List.find?_isSome.2 ⟨h, hh, by simp⟩
  obtain ⟨g, hg⟩ := Option.isSome_iff_exists.1 hfound
  exact ⟨_, by rw [block, hg]⟩

/-- The node of a child of the first block. -/
def forked (child : Header) : Memory := ⟨[BlockTree.genesis, child], [], false⟩

end Memory

end Attestor.Node

/-! ### Trackers -/

namespace Attestor.Tracker

variable {T : BlockTree} {t t' : Tracker} {b : HeaderBatch} {node : Node.Memory} {σ : Type}

theorem inTree_absorb {must : Bool} (hw : t.window.InTree T)
    (hh : ∀ h ∈ b.headers, T.Has h ∧ T.height h.id < UInt32.size)
    (ha : t.absorb b = .ok (t', must)) : t'.window.InTree T := by
  rcases absorb_eq_ok ha with ⟨-, rfl, -⟩ | ⟨-, w, linked, hw', ⟨-, rfl, -⟩ | ⟨-, rfl, -⟩⟩
  · exact hw
  · exact Window.inTree_empty
  · obtain ⟨v, m, hv, hin⟩ := hw.apply hh 0
    rw [hw'] at hv
    cases hv
    exact hin.trim _

/-- The newest headers of a chain on the tree make a window on the tree. -/
theorem settled_recent (hc : T.Branch node.headers) {count : ℕ} (hcount : t.offset = count) :
    t.settled (.ok (node.recent count)) =
      some { t with window := .newest count node.headers } := by
  subst hcount
  rw [settled, Window.ofBatch_recent hc t.offset_pos]
  simp only [Window.trim_newest]

/-- A batch that leaves too few blocks gets the tracker the end of the node's chain. -/
theorem handle_rebuilt (answer : (q : Question) → StateM σ q.Answer)
    (hcanceled : ∀ s, (answer .canceled s).1 = false)
    (hrecent : ∀ s, (answer (.recent t.offset) s).1 = .ok (node.recent t.offset))
    (hc : T.Branch node.headers) (ha : t.absorb b = .ok (t', true)) (s : σ) :
    ∃ s', (t.handle b).run answer s =
      (some { t' with window := .newest t.offset node.headers }, s') := by
  rw [run_handle, ha]
  simp only [hcanceled, Bool.false_eq_true, if_false, hrecent,
    settled_recent hc (offset_absorb ha)]
  exact ⟨_, rfl⟩

/-- Part of the node's chain leaves the window on the tree, and at the end of the chain if the
part is. -/
theorem handle_part (answer : (q : Question) → StateM σ q.Answer)
    (hcanceled : ∀ s, (answer .canceled s).1 = false)
    (hrecent : ∀ s, (answer (.recent t.offset) s).1 = .ok (node.recent t.offset))
    (hc : T.Branch node.headers) (hw : t.window.InTree T) (hne : b.headers ≠ [])
    (hlen : b.start.toNat + b.headers.length ≤ UInt32.size)
    (hpart : b.headers <:+: node.headers) (s : σ) :
    ∃ t' s', (t.handle b).run answer s = (some t', s') ∧ t'.offset = t.offset ∧
      t'.window.InTree T ∧ (b.headers.getLast? = node.headers.getLast? →
        t'.window = .newest t.offset node.headers) := by
  have hrun : Header.Run b.headers := hc.linked.infix hpart
  have hhas : ∀ h ∈ b.headers, T.Has h ∧ T.height h.id < UInt32.size := fun h hh =>
    (hc.has_of_mem (hpart.subset hh)).imp_right fun hlt => hlt.trans hc.length_lt
  obtain ⟨w, linked, ha, hin⟩ := hw.apply hhas 0
  obtain ⟨t', must, habs⟩ := absorb_of_apply hne hlen ha
  have hoffset := offset_absorb habs
  rcases absorb_eq_ok habs with ⟨hnil, -⟩ | ⟨-, w', linked', ha', hcases⟩
  · exact absurd hnil hne
  · rw [ha] at ha'
    cases ha'
    rcases hcases with ⟨rfl, -, -⟩ | ⟨rfl, ht, hlinked, hsize⟩
    · obtain ⟨s', hrebuilt⟩ := handle_rebuilt answer hcanceled hrecent hc habs s
      exact ⟨_, s', hrebuilt, hoffset, Window.inTree_newest hc _, fun _ => rfl⟩
    · refine ⟨t', s, by rw [run_handle, habs], hoffset, ht ▸ hin.trim _, fun hend => ?_⟩
      have hlast := Window.getLast?_apply hrun ha hlinked
      rw [ht]
      exact hin.trim_eq_newest hc t.offset_pos (hlast.trans (congrArg _ hend)) hsize

end Attestor.Tracker
