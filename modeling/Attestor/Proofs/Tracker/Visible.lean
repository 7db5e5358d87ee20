import Attestor.Proofs.Tracker.Handle
import Attestor.Proofs.Window.Apply

/-! What can be seen of a tracker. Batches of any headers come one after another, and the node
answers each request of the tracker with any headers or not at all. Whenever the window can be
read, also while it is empty and about to be rebuilt, it holds at most as many blocks as are
needed, each of them follows the one before it by some header that was delivered, and none of
them lies below height zero. So the block that is signed against is the right number of parents
behind the newest one. -/

namespace Attestor

/-- A header that was delivered names the first block as the parent of the second. -/
def Follows (delivered : List Header) (parent block : Digest) : Prop :=
  ∃ h ∈ delivered, h.id = block ∧ h.parent = parent

/-- From the first block one comes to the second by going from a block to its parent as often as
the number says. -/
inductive Behind (delivered : List Header) : ℕ → Digest → Digest → Prop
  | self (d : Digest) : Behind delivered 0 d d
  | parent {n : ℕ} {block parent d : Digest} (hp : Follows delivered parent block)
      (hd : Behind delivered n parent d) : Behind delivered (n + 1) block d

theorem Follows.mono {seen more : List Header} {parent block : Digest}
    (h : Follows seen parent block) (hsub : seen ⊆ more) : Follows more parent block := by
  obtain ⟨g, hg, hid, hparent⟩ := h
  exact ⟨g, hsub hg, hid, hparent⟩

theorem behind_of_isChain {seen : List Header} {hashes : List Digest}
    (hchain : hashes.IsChain (Follows seen)) {i : ℕ} {earlier : Digest}
    (hi : hashes[i]? = some earlier) :
    ∀ (n : ℕ) (block : Digest), hashes[i + n]? = some block → Behind seen n block earlier
  | 0, block, hn => by
    rw [Nat.add_zero, hi] at hn
    cases hn
    exact .self _
  | n + 1, block, hn => by
    obtain ⟨hlt, rfl⟩ := List.getElem?_eq_some_iff.1 hn
    have hprev : i + n < hashes.length := by omega
    exact .parent (hchain.getElem (i + n) hlt)
      (behind_of_isChain hchain hi n _ (List.getElem?_eq_getElem hprev))

namespace Tracker

/-- A batch, and what the tracker is told if it has to ask. -/
structure Call where
  batch : HeaderBatch
  canceled : Bool
  recent : Except Node.Error HeaderBatch

namespace Call

/-- The headers of the node's answer. -/
def answered (c : Call) : List Header :=
  match c.recent with
  | .ok b => b.headers
  | .error _ => []

/-- Answers the tracker, and keeps the headers that the node delivers. -/
def answer (c : Call) : (q : Question) → StateM (List Header) q.Answer
  | .canceled => fun delivered => (c.canceled, delivered)
  | .recent _ => fun delivered => (c.recent, delivered ++ c.answered)

/-- The tracker after a call, and the headers that were delivered by then; no tracker if a
height overflows. -/
def run (c : Call) (t : Tracker) (delivered : List Header) : Option Tracker × List Header :=
  (t.handle c.batch).run c.answer (delivered ++ c.batch.headers)

end Call

/-- The states in which the window can be read, with the headers that were delivered before: at
the start, when a batch has been taken and the window may wait to be rebuilt, and at the end of
a call. -/
inductive Visible (offset : ℕ) : Tracker → List Header → Prop
  | new : Visible offset (Tracker.new offset) []
  | absorbed {t t' : Tracker} {delivered : List Header} {b : HeaderBatch} {must : Bool}
      (h : Visible offset t delivered) (ha : t.absorb b = .ok (t', must)) :
      Visible offset t' (delivered ++ b.headers)
  | handled {t t' : Tracker} {delivered delivered' : List Header} {c : Call}
      (h : Visible offset t delivered) (hc : c.run t delivered = (some t', delivered')) :
      Visible offset t' delivered'

variable {offset : ℕ} {t t' : Tracker} {delivered delivered' : List Header} {b : HeaderBatch}

/-- The window holds no more blocks than are needed, and they are linked. -/
structure Sound (offset : ℕ) (t : Tracker) (delivered : List Header) : Prop where
  offset_eq : t.offset = offset
  size_le : t.window.size ≤ offset
  linked : t.window.Linked (Follows delivered)

theorem sound_new (hpos : 0 < offset) : Sound offset (Tracker.new offset) [] :=
  ⟨Nat.max_eq_left hpos, Nat.zero_le _, Window.linked_empty⟩

theorem Sound.mono (h : Sound offset t delivered) (hsub : delivered ⊆ delivered') :
    Sound offset t delivered' :=
  ⟨h.offset_eq, h.size_le, h.linked.mono fun _ _ hf => hf.mono hsub⟩

theorem Sound.absorb {must : Bool} (h : Sound offset t delivered)
    (ha : t.absorb b = .ok (t', must)) : Sound offset t' (delivered ++ b.headers) := by
  have hmono := h.mono (List.subset_append_left delivered b.headers)
  rcases absorb_eq_ok ha with ⟨-, rfl, -⟩ | ⟨-, w, linked, hw, ⟨-, rfl, -⟩ | ⟨-, rfl, -⟩⟩
  · exact hmono
  · exact ⟨h.offset_eq, Nat.zero_le _, Window.linked_empty⟩
  · refine ⟨h.offset_eq, ?_, ?_⟩
    · have := h.offset_eq
      simp only [Window.size_trim]
      omega
    · refine (hmono.linked.apply (fun g hg => ?_) hw).trim _
      exact ⟨g, List.mem_append_right _ hg, rfl, rfl⟩

theorem Sound.settled {r : Except Node.Error HeaderBatch} {answered : List Header}
    (h : Sound offset t delivered) (hr : ∀ b, r = .ok b → b.headers ⊆ answered)
    (hs : t.settled r = some t') : Sound offset t' (delivered ++ answered) := by
  have hmono := h.mono (List.subset_append_left delivered answered)
  cases r with
  | error e =>
    cases hs
    exact hmono
  | ok b =>
    simp only [Tracker.settled] at hs
    split at hs
    next w hw =>
      cases hs
      refine ⟨h.offset_eq, ?_, ?_⟩
      · have := h.offset_eq
        simp only [Window.size_trim]
        omega
      · refine (Window.linked_ofBatch (fun g hg => ?_) hw).trim _
        exact ⟨g, List.mem_append_right _ (hr b rfl hg), rfl, rfl⟩
    next =>
      cases hs
      exact hmono
    next => cases hs

/-- What comes of a call that overflows no height. -/
theorem Call.run_eq_some {c : Call} (h : c.run t delivered = (some t', delivered')) :
    ∃ u must, t.absorb c.batch = .ok (u, must) ∧
      ((must = false ∨ c.canceled = true) ∧ t' = u ∧ delivered' = delivered ++ c.batch.headers ∨
        must = true ∧ c.canceled = false ∧ u.settled c.recent = some t' ∧
          delivered' = delivered ++ c.batch.headers ++ c.answered) := by
  rw [Call.run, run_handle] at h
  split at h
  next => cases h
  next u ha =>
    simp only [Prod.mk.injEq, Option.some.injEq] at h
    exact ⟨u, false, ha, .inl ⟨.inl rfl, h.1.symm, h.2.symm⟩⟩
  next u ha =>
    refine ⟨u, true, ha, ?_⟩
    simp only [Call.answer] at h
    cases hc : c.canceled with
    | true =>
      simp only [hc, if_true, Prod.mk.injEq, Option.some.injEq] at h
      exact .inl ⟨.inr rfl, h.1.symm, h.2.symm⟩
    | false =>
      simp only [hc, Bool.false_eq_true, if_false, Prod.mk.injEq] at h
      exact .inr ⟨rfl, rfl, h.1, h.2.symm⟩

theorem Sound.run {c : Call} (h : Sound offset t delivered)
    (hc : c.run t delivered = (some t', delivered')) : Sound offset t' delivered' := by
  obtain ⟨u, must, ha, ⟨-, rfl, rfl⟩ | ⟨-, -, hs, rfl⟩⟩ := Call.run_eq_some hc
  · exact h.absorb ha
  · exact (h.absorb ha).settled (fun b hb => by simp [Call.answered, hb]) hs

theorem Visible.sound (hpos : 0 < offset) (h : Visible offset t delivered) :
    Sound offset t delivered := by
  induction h with
  | new => exact sound_new hpos
  | absorbed _ ha ih => exact ih.absorb ha
  | handled _ hc ih => exact ih.run hc

/-- The block that is signed against is the oldest of a full window. -/
theorem Sound.signingBlock {d : Digest} {n : UInt32} (h : Sound offset t delivered)
    (hs : t.signingBlock = .ok (d, n)) : ∃ tip height, t.window.tip? = some (tip, height) ∧
      Behind delivered (offset - 1) tip d ∧ n.toNat + (offset - 1) = height.toNat := by
  have hpos := t.offset_pos
  have hoffset := h.offset_eq
  have hsize := h.size_le
  have hheight := h.linked.size_le
  unfold Tracker.signingBlock at hs
  split at hs
  next => cases hs
  next hfull =>
    split at hs
    next e he =>
      simp only [Except.ok.injEq, Prod.mk.injEq] at hs
      obtain ⟨rfl, rfl⟩ := hs
      have hzero : t.window.size - t.offset = 0 := by omega
      have hlast : t.window.hashes.length - 1 < t.window.hashes.length := by
        simp only [Window.size] at hfull
        omega
      have htip : t.window.hashes[0 + (offset - 1)]? =
          some t.window.hashes[t.window.hashes.length - 1] := by
        rw [← List.getElem?_eq_getElem hlast]
        congr 1
        simp only [Window.size] at hfull hsize
        omega
      rw [hzero] at he
      refine ⟨_, t.window.height, ?_, behind_of_isChain h.linked.chain he _ _ htip, ?_⟩
      · rw [Window.tip?, List.getLast?_eq_getElem?, List.getElem?_eq_getElem hlast]
        rfl
      · have := t.window.height.toNat_lt_size
        rw [UInt32.toNat_ofNat_of_lt' (by omega)]
        omega
    next => cases hs

/-- A call with headers leaves as many blocks as are needed, or the fewer ones that the node
answered with, or none. -/
theorem Sound.size_run {c : Call} (h : Sound offset t delivered) (hne : c.batch.headers ≠ [])
    (hc : c.run t delivered = (some t', delivered')) : t'.window.size = offset ∨
      (∃ b, c.canceled = false ∧ c.recent = .ok b ∧ t'.window.hashes = b.ids ∧
        b.finish = .ok (some t'.window.height) ∧ t'.window.size < offset) ∨
      t'.window = .empty := by
  have hoffset := h.offset_eq
  obtain ⟨u, must, ha, ⟨hmust, rfl, rfl⟩ | ⟨rfl, hcanceled, hs, rfl⟩⟩ := Call.run_eq_some hc
  · rcases absorb_eq_ok ha with ⟨hnil, -⟩ | ⟨-, w, linked, -, ⟨-, rfl, -⟩ | ⟨-, rfl, -, hsize⟩⟩
    · exact absurd hnil hne
    · exact .inr (.inr rfl)
    · left
      simp only [Window.size_trim]
      omega
  · have hu := window_absorb ha
    have huoffset := offset_absorb ha
    cases hr : c.recent with
    | error e =>
      rw [hr] at hs
      cases hs
      exact .inr (.inr hu)
    | ok b =>
      rw [hr] at hs
      simp only [Tracker.settled] at hs
      split at hs
      next w hw =>
        cases hs
        obtain ⟨-, hhashes, hheight⟩ := Window.ofBatch_eq_ok.1 hw
        by_cases hfull : u.offset ≤ w.size
        · left
          simp only [Window.size_trim]
          omega
        · have htrim : w.trim u.offset = w := by
            rw [Window.trim, show w.size - u.offset = 0 by omega, List.drop_zero]
          simp only [htrim]
          right
          rcases hheight with ⟨hnil, hzero⟩ | hheight
          · right
            cases w
            simp_all [Window.empty, HeaderBatch.ids]
          · exact .inl ⟨b, hcanceled, rfl, hhashes, HeaderBatch.finish_eq_ok_some.2 hheight,
              by omega⟩
      next =>
        cases hs
        exact .inr (.inr hu)
      next => cases hs

/-- Whenever the window can be read it is bounded and linked, no height has been cut off at
zero, not even in the middle of a batch, and the block that is signed against stands where it
should. -/
theorem visible_window (hpos : 0 < offset) (h : Visible offset t delivered) :
    t.window.size ≤ offset ∧
      (∀ i parent block, t.window.hashes[i]? = some parent →
        t.window.hashes[i + 1]? = some block → Follows delivered parent block) ∧
      t.window.size ≤ t.window.height.toNat + 1 ∧
      (∀ headers w linked, t.window.apply 0 headers = .ok (w, linked) →
        w.size ≤ w.height.toNat + 1) ∧
      (∀ d n, t.signingBlock = .ok (d, n) → ∃ tip height, t.window.tip? = some (tip, height) ∧
        Behind delivered (offset - 1) tip d ∧ n.toNat + (offset - 1) = height.toNat) ∧
      ∀ (c : Call) (t' : Tracker) (delivered' : List Header), c.batch.headers ≠ [] →
        c.run t delivered = (some t', delivered') → t'.window.size = offset ∨
          (∃ b, c.canceled = false ∧ c.recent = .ok b ∧ t'.window.hashes = b.ids ∧
            b.finish = .ok (some t'.window.height) ∧ t'.window.size < offset) ∨
          t'.window = .empty := by
  have hs := h.sound hpos
  refine ⟨hs.size_le, fun i parent block hi hj => ?_, hs.linked.size_le, fun headers w n hw => ?_,
    fun d n hd => hs.signingBlock hd, fun c t' delivered' hne hc => hs.size_run hne hc⟩
  · obtain ⟨hlt, rfl⟩ := List.getElem?_eq_some_iff.1 hj
    obtain ⟨-, rfl⟩ := List.getElem?_eq_some_iff.1 hi
    exact hs.linked.chain.getElem i hlt
  · -- which headers follow which does not matter for the heights
    have htrue : t.window.Linked fun _ _ => True := hs.linked.mono fun _ _ _ => trivial
    exact (htrue.apply (fun _ _ => trivial) hw).size_le

/-- A block without a parent and one on top of it, by the headers' names alone. -/
def rootHeader : Header := ⟨1, Digest.zero, Digest.zero, 0, 0, 0⟩

def childHeader : Header := { rootHeader with parent := rootHeader.id }

/-- The first batch that a tracker gets; it asks for two blocks. -/
def firstCall : Call := ⟨⟨1, [childHeader]⟩, false, .ok ⟨0, [rootHeader, childHeader]⟩⟩

def filledTracker : Tracker := ⟨2, by decide, ⟨[rootHeader.id, childHeader.id], 1⟩⟩

theorem run_firstCall : firstCall.run (Tracker.new 2) [] =
    (some filledTracker, [childHeader, rootHeader, childHeader]) := by
  have ha : (Tracker.new 2).absorb firstCall.batch = .ok (Tracker.new 2, true) := rfl
  have hw : Window.ofBatch ⟨0, [rootHeader, childHeader]⟩ =
      .ok ⟨[rootHeader.id, childHeader.id], 1⟩ :=
    Window.ofBatch_eq_ok.2 ⟨List.isChain_pair.2 rfl, rfl, .inr ⟨by simp, rfl⟩⟩
  have hs : (Tracker.new 2).settled firstCall.recent = some filledTracker := by
    simp only [firstCall, settled, hw]
    rfl
  rw [Call.run, run_handle, ha]
  simp only [Call.answer]
  rw [hs]
  rfl

theorem visible_window_filledTracker : 0 < 2 ∧
    Visible 2 filledTracker [childHeader, rootHeader, childHeader] ∧
    filledTracker.signingBlock = .ok (rootHeader.id, 0) ∧
    Behind [childHeader, rootHeader, childHeader] 1 childHeader.id rootHeader.id := by
  have hv : Visible 2 filledTracker [childHeader, rootHeader, childHeader] :=
    .handled .new run_firstCall
  have hsigning : filledTracker.signingBlock = .ok (rootHeader.id, 0) := rfl
  obtain ⟨tip, height, htip, hbehind, -⟩ :=
    (visible_window (by decide) hv).2.2.2.2.1 _ _ hsigning
  cases htip
  exact ⟨by decide, hv, hsigning, hbehind⟩

end Tracker

end Attestor
