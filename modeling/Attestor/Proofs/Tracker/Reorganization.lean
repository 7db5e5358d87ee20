import Attestor.Proofs.Chain.Tree
import Attestor.Proofs.Tracker.Visible
import Attestor.Proofs.Window.Apply

/-! What one batch of linked headers makes of a window and of its tracker. If one of them has its
parent in the window, and that leaves as many blocks as are needed, then the window is moved there
and nobody is asked. Otherwise the node is asked once, unless the call is canceled, and what it
answers is the window, or none is left. -/

namespace Attestor.Window

/-! ### Windows of different blocks

The first header whose parent is in the window decides: what stands behind that parent goes, and
that header and all after it take its place, whatever was before. This covers headers that only
extend the window, those that fork off anywhere in it, and those that begin with blocks it does
not know or holds already. Without such a header nothing happens. -/

/-- The header at `j` is the first one whose parent is in the window, where it stands at `i`. -/
structure Fork (w : Window) (headers : List Header) (i j : ℕ) : Prop where
  parent : ∃ h, headers[j]? = some h ∧ w.hashes[i]? = some h.parent
  first : ∀ g ∈ headers.take j, g.parent ∉ w.hashes

variable {w : Window} {headers : List Header} {h : Header} {i j n : ℕ}

theorem Fork.lt (h : w.Fork headers i j) : i < w.hashes.length ∧ j < headers.length :=
  let ⟨_, hj, hi⟩ := h.parent
  ⟨(List.getElem?_eq_some_iff.1 hi).1, (List.getElem?_eq_some_iff.1 hj).1⟩

theorem fork_or_unrelated (w : Window) (headers : List Header) :
    (∃ i j, w.Fork headers i j) ∨ ∀ g ∈ headers, g.parent ∉ w.hashes := by
  induction headers with
  | nil => exact .inr nofun
  | cons h rest ih =>
    by_cases hmem : h.parent ∈ w.hashes
    · obtain ⟨i, hi⟩ := List.mem_iff_getElem?.1 hmem
      exact .inl ⟨i, 0, ⟨h, rfl, hi⟩, nofun⟩
    · rcases ih with ⟨i, j, hparent, hfirst⟩ | hnone
      · exact .inl ⟨i, j + 1, hparent, List.forall_mem_cons.2 ⟨hmem, hfirst⟩⟩
      · exact .inr (List.forall_mem_cons.2 ⟨hmem, hnone⟩)

/-! ### One header -/

theorem base?_eq_none : w.base? h = none ↔ h.parent ∉ w.hashes := by
  unfold base?
  split
  next hlast => simpa using List.mem_of_getLast? hlast
  next => rw [Option.map_eq_none_iff, List.idxOf?_eq_none_iff]

/-- Among different blocks there is one place only to extend. -/
theorem base?_of_nodup (hw : w.hashes.Nodup) (hi : w.hashes[i]? = some h.parent) :
    w.base? h = some (w.cut i) := by
  cases hb : w.base? h with
  | none => exact absurd (List.mem_of_getElem? hi) (base?_eq_none.1 hb)
  | some base =>
    obtain ⟨k, hk, rfl⟩ := base?_eq_some hb
    obtain ⟨hlt, -⟩ := List.getElem?_eq_some_iff.1 hi
    rw [(List.getElem?_inj hlt hw).1 (hi.trans hk.symm)]

/-! ### Many headers -/

/-- Headers whose parents are not in the window are passed over. -/
theorem apply_append_of_unrelated {before : List Header}
    (h : ∀ g ∈ before, g.parent ∉ w.hashes) (rest : List Header) :
    w.apply n (before ++ rest) = w.apply n rest := by
  induction before with
  | nil => rfl
  | cons g before ih =>
    obtain ⟨hg, hbefore⟩ := List.forall_mem_cons.1 h
    rw [List.cons_append, apply_cons_of_none (base?_eq_none.2 hg)]
    exact ih hbefore

/-- Linked headers that start right behind the newest block are put at the end one by one. -/
theorem apply_of_extends (hrun : Header.Run headers)
    (hnext : ∀ h ∈ headers.head?, w.hashes.getLast? = some h.parent)
    (hfits : w.height.toNat + headers.length < UInt32.size) :
    ∃ v, w.apply n headers = .ok (v, n + headers.length) ∧
      v.hashes = w.hashes ++ headers.map Header.id ∧
      v.height.toNat = w.height.toNat + headers.length := by
  induction headers generalizing w n with
  | nil => exact ⟨w, rfl, (List.append_nil _).symm, rfl⟩
  | cons h rest ih =>
    obtain ⟨hlink, hrun⟩ := List.isChain_cons.1 hrun
    rw [List.length_cons] at hfits
    obtain ⟨u, hu⟩ : ∃ u, w.push h.id = .ok u :=
      ⟨⟨_, .ofNat (w.height.toNat + 1)⟩,
        push_eq_ok.2 ⟨rfl, UInt32.toNat_ofNat_of_lt' (by omega)⟩⟩
    obtain ⟨hhashes, hheight⟩ := push_eq_ok.1 hu
    have hlast : u.hashes.getLast? = some h.id := by rw [hhashes, List.getLast?_concat]
    obtain ⟨v, hv, hvhashes, hvheight⟩ := ih (w := u) (n := n + 1) hrun
      (fun g hg => hlast.trans (congrArg some (hlink g hg).symm)) (by omega)
    refine ⟨v, ?_, ?_, ?_⟩
    · rw [apply_cons_of_some (base?_of_getLast? (hnext h rfl)), hu, List.length_cons,
        Nat.add_comm rest.length 1, ← Nat.add_assoc]
      exact hv
    · rw [hvhashes, hhashes, List.append_assoc]
      rfl
    · rw [hvheight, hheight, List.length_cons]
      omega

/-- The window up to the parent, and from there on the headers. -/
theorem apply_of_fork (hw : w.hashes.Nodup) (hrun : Header.Run headers)
    (hfork : w.Fork headers i j)
    (hfits : w.height.toNat - (w.size - (i + 1)) + (headers.length - j) < UInt32.size) :
    ∃ v, w.apply n headers = .ok (v, n + (headers.length - j)) ∧
      v.hashes = w.hashes.take (i + 1) ++ (headers.drop j).map Header.id ∧
      v.height.toNat = w.height.toNat - (w.size - (i + 1)) + (headers.length - j) := by
  obtain ⟨⟨h, hj, hi⟩, hfirst⟩ := hfork
  obtain ⟨hlt, hget⟩ := List.getElem?_eq_some_iff.1 hj
  have hdrop : headers.drop j = h :: headers.drop (j + 1) := by
    rw [List.drop_eq_getElem_cons hlt, hget]
  have hlength : headers.length - j = (headers.drop (j + 1)).length + 1 := by
    rw [List.length_drop]
    omega
  have hcut := height_cut w i
  obtain ⟨u, hu⟩ : ∃ u, (w.cut i).push h.id = .ok u :=
    ⟨⟨_, .ofNat ((w.cut i).height.toNat + 1)⟩,
      push_eq_ok.2 ⟨rfl, UInt32.toNat_ofNat_of_lt' (by omega)⟩⟩
  obtain ⟨hhashes, hheight⟩ := push_eq_ok.1 hu
  have hlast : u.hashes.getLast? = some h.id := by rw [hhashes, List.getLast?_concat]
  obtain ⟨hlink, hrest⟩ := List.isChain_cons.1 (hdrop ▸ hrun.drop j)
  -- from here on every header finds its parent at the end
  obtain ⟨v, hv, hvhashes, hvheight⟩ := apply_of_extends (w := u) (n := n + 1) hrest
    (fun g hg => hlast.trans (congrArg some (hlink g hg).symm)) (by omega)
  refine ⟨v, ?_, ?_, ?_⟩
  · have hpassed : w.apply n headers = w.apply n (headers.drop j) := by
      conv_lhs => rw [← List.take_append_drop j headers]
      exact apply_append_of_unrelated hfirst _
    rw [hpassed, hdrop, apply_cons_of_some (base?_of_nodup hw hi), hu, hlength,
      Nat.add_comm (headers.drop (j + 1)).length 1, ← Nat.add_assoc]
    exact hv
  · rw [hvhashes, hhashes, hdrop, List.append_assoc]
    rfl
  · rw [hvheight, hheight, hcut]
    omega

end Attestor.Window

/-! ### Trackers -/

namespace Attestor.Tracker

open HeaderBatch (finish_of_le)

namespace Call

/-- Answers the tracker, and keeps what it asks. -/
def attend (c : Call) : (q : Question) → StateM (List Question) q.Answer
  | .canceled => fun asked => (c.canceled, asked ++ [.canceled])
  | .recent count => fun asked => (c.recent, asked ++ [.recent count])

/-- The tracker after a call, and what it asked; no tracker if a height overflows. -/
def outcome (c : Call) (t : Tracker) : Option Tracker × List Question :=
  (t.handle c.batch).run c.attend []

end Call

/-- The windows that the node's answer leaves: the newest blocks of it, or none if it failed or
is not linked. -/
inductive Fetched (offset : ℕ) : Except Node.Error HeaderBatch → Window → Prop
  | failed (e : Node.Error) : Fetched offset (.error e) .empty
  | unlinked {b : HeaderBatch} (hrun : ¬ Header.Run b.headers) : Fetched offset (.ok b) .empty
  | nothing {b : HeaderBatch} (hnil : b.headers = []) : Fetched offset (.ok b) .empty
  | newest {b : HeaderBatch} {w : Window} (hrun : Header.Run b.headers) (hne : b.headers ≠ [])
    (hhashes : w.hashes = b.ids.rtake offset)
    (hheight : w.height.toNat + 1 = b.start.toNat + b.headers.length) : Fetched offset (.ok b) w

variable {t : Tracker} {b : HeaderBatch} {i j : ℕ}

theorem ofBatch_of_le (hlen : b.start.toNat + b.headers.length ≤ UInt32.size) :
    Window.ofBatch b ≠ .error .overflow := by
  unfold Window.ofBatch
  cases Header.unlinked? b.headers with
  | some link => exact nofun
  | none =>
    by_cases hne : b.headers = []
    · rw [HeaderBatch.finish_eq_ok_none.2 hne]
      exact nofun
    · rw [finish_of_le hne hlen]
      exact nofun

/-- A tracker that has asked has the window that the answer leaves. -/
theorem settled_fetched {r : Except Node.Error HeaderBatch}
    (hr : ∀ b, r = .ok b → b.start.toNat + b.headers.length ≤ UInt32.size)
    (ht : t.window = .empty) :
    ∃ w, t.settled r = some { t with window := w } ∧ Fetched t.offset r w := by
  have hsame : t = { t with window := .empty } := by rw [← ht]
  cases r with
  | error e => exact ⟨.empty, congrArg some hsame, .failed e⟩
  | ok b =>
    rw [settled]
    cases hw : Window.ofBatch b with
    | ok w =>
      obtain ⟨hrun, hhashes, ⟨hnil, hheight⟩ | ⟨hne, hheight⟩⟩ := Window.ofBatch_eq_ok.1 hw
      · have hids : b.ids = [] := by rw [HeaderBatch.ids, hnil, List.map_nil]
        have hempty : w.trim t.offset = ⟨[], 0⟩ := by
          rw [Window.trim, hhashes, hids, List.drop_nil, hheight]
        exact ⟨.empty, congrArg (fun v => some { t with window := v }) hempty, .nothing hnil⟩
      · refine ⟨_, rfl, .newest hrun hne ?_ hheight⟩
        rw [Window.hashes_trim, Window.size, hhashes]
        rfl
    | error fault =>
      cases fault with
      | unlinked id previous =>
        refine ⟨.empty, congrArg some hsame, .unlinked fun hrun => ?_⟩
        rw [Window.ofBatch, Header.unlinked?_eq_none.2 hrun] at hw
        cases hf : b.finish <;> rw [hf] at hw <;> cases hw
      | overflow => exact absurd hw (ofBatch_of_le (hr b rfl))

/-! ### The batch -/

/-- A batch that leaves enough blocks moves the window. -/
theorem absorb_of_fork (hw : t.window.hashes.Nodup) (hrun : Header.Run b.headers)
    (hbatch : b.start.toNat + b.headers.length ≤ UInt32.size)
    (hfork : t.window.Fork b.headers i j)
    (hfits : t.window.height.toNat - (t.window.size - (i + 1)) + (b.headers.length - j) <
      UInt32.size)
    (hsize : t.offset ≤ i + 1 + (b.headers.length - j)) :
    ∃ w, t.absorb b = .ok ({ t with window := w }, false) ∧
      w.hashes = (t.window.hashes.take (i + 1) ++ (b.headers.drop j).map Header.id).rtake
        t.offset ∧
      w.height.toNat = t.window.height.toNat - (t.window.size - (i + 1)) +
        (b.headers.length - j) := by
  obtain ⟨hi, hj⟩ := hfork.lt
  obtain ⟨w, happly, hhashes, hheight⟩ := Window.apply_of_fork (n := 0) hw hrun hfork hfits
  have hne : b.headers ≠ [] := List.ne_nil_of_length_pos (by omega)
  have hlen : w.size = i + 1 + (b.headers.length - j) := by
    rw [Window.size, hhashes, List.length_append, List.length_map, List.length_drop,
      List.length_take_of_le hi]
  refine ⟨w.trim t.offset, ?_, ?_, hheight⟩
  · rw [absorb_eq_of_apply hne hbatch happly, if_neg (by omega)]
  · rw [Window.hashes_trim, Window.size, hhashes]
    rfl

/-- A batch that leaves too few blocks, or finds none to extend, empties the window. -/
theorem absorb_of_short (hw : t.window.hashes.Nodup) (hrun : Header.Run b.headers)
    (hbatch : b.start.toNat + b.headers.length ≤ UInt32.size) (hne : b.headers ≠ [])
    (hfits : ∀ i j, t.window.Fork b.headers i j →
      t.window.height.toNat - (t.window.size - (i + 1)) + (b.headers.length - j) < UInt32.size)
    (hshort : ∀ i j, t.window.Fork b.headers i j → i + 1 + (b.headers.length - j) < t.offset) :
    t.absorb b = .ok ({ t with window := .empty }, true) := by
  rcases t.window.fork_or_unrelated b.headers with ⟨i, j, hfork⟩ | hnone
  · obtain ⟨w, happly, hhashes, -⟩ :=
      Window.apply_of_fork (n := 0) hw hrun hfork (hfits i j hfork)
    have hlen : w.size ≤ i + 1 + (b.headers.length - j) := by
      rw [Window.size, hhashes, List.length_append, List.length_map, List.length_drop]
      exact Nat.add_le_add_right (List.length_take_le _ _) _
    rw [absorb_eq_of_apply hne hbatch happly,
      if_pos (.inr (hlen.trans_lt (hshort i j hfork)))]
  · have happly : t.window.apply 0 b.headers = .ok (t.window, 0) := by
      have hpassed := Window.apply_append_of_unrelated (n := 0) hnone []
      rwa [List.append_nil] at hpassed
    rw [absorb_eq_of_apply hne hbatch happly, if_pos (.inl rfl)]

/-- A batch of linked headers moves the window to the first of them whose parent is in it, if
that leaves as many blocks as are needed, and nothing is asked. Otherwise the node is asked once
for the newest blocks, unless the call is canceled. -/
theorem reorganizes_or_asks_once (t : Tracker) (c : Call)
    (hdistinct : t.window.hashes.Nodup) (hrun : Header.Run c.batch.headers)
    (hbatch : c.batch.start.toNat + c.batch.headers.length ≤ UInt32.size)
    (hfits : ∀ i j, t.window.Fork c.batch.headers i j →
      t.window.height.toNat - (t.window.size - (i + 1)) + (c.batch.headers.length - j) <
        UInt32.size)
    (hrecent : ∀ b, c.recent = .ok b → b.start.toNat + b.headers.length ≤ UInt32.size) :
    (c.batch.headers = [] → c.outcome t = (some t, [])) ∧
    (∀ i j, t.window.Fork c.batch.headers i j →
      t.offset ≤ i + 1 + (c.batch.headers.length - j) →
      ∃ w, c.outcome t = (some { t with window := w }, []) ∧
        w.hashes = (t.window.hashes.take (i + 1) ++
          (c.batch.headers.drop j).map Header.id).rtake t.offset ∧
        w.height.toNat = t.window.height.toNat - (t.window.size - (i + 1)) +
          (c.batch.headers.length - j)) ∧
    (c.batch.headers ≠ [] →
      (∀ i j, t.window.Fork c.batch.headers i j →
        i + 1 + (c.batch.headers.length - j) < t.offset) →
      (c.canceled = true →
        c.outcome t = (some { t with window := .empty }, [.canceled])) ∧
      (c.canceled = false →
        ∃ w, c.outcome t = (some { t with window := w }, [.canceled, .recent t.offset]) ∧
          Fetched t.offset c.recent w)) := by
  refine ⟨fun hnil => ?_, fun i j hfork hsize => ?_, fun hne hshort => ?_⟩
  · have ha : t.absorb c.batch = .ok (t, false) := by
      rw [absorb, HeaderBatch.finish_eq_ok_none.2 hnil]
      rfl
    rw [Call.outcome, run_handle, ha]
  · obtain ⟨w, ha, hw⟩ := absorb_of_fork hdistinct hrun hbatch hfork (hfits i j hfork) hsize
    refine ⟨w, ?_, hw⟩
    rw [Call.outcome, run_handle, ha]
  · have ha := absorb_of_short hdistinct hrun hbatch hne hfits hshort
    refine ⟨fun hcanceled => ?_, fun hcanceled => ?_⟩
    · simp only [Call.outcome, run_handle, ha, Call.attend, hcanceled, if_true]
      rfl
    · obtain ⟨w, hw, hfetched⟩ :=
        settled_fetched (t := { t with window := .empty }) hrecent rfl
      refine ⟨w, ?_, hfetched⟩
      simp only [Call.outcome, run_handle, ha, Call.attend, hcanceled, Bool.false_eq_true, if_false]
      rw [hw]
      rfl

/-! ### The other branch of a fork -/

open BlockTree (genesis left right nodup_fork)

def leftTracker : Tracker := ⟨2, Nat.two_pos, ⟨[genesis.id, left.id], 1⟩⟩

/-- A batch with the other block on the same parent; the node would not answer. -/
def rightCall : Call := ⟨⟨1, [right]⟩, false, .error (.http .request)⟩

/-- The block on the right takes the place of the one on the left, and nobody is asked. -/
theorem reorganizes_to_right : leftTracker.window.hashes.Nodup ∧
    leftTracker.window.Fork rightCall.batch.headers 0 0 ∧
    ∃ w, rightCall.outcome leftTracker = (some { leftTracker with window := w }, []) ∧
      w.hashes = [genesis.id, right.id] ∧ w.height.toNat = 1 := by
  have hdistinct : leftTracker.window.hashes.Nodup :=
    nodup_fork.sublist (.cons _ (.cons_cons _ (.cons_cons _ (.cons _ .slnil))))
  have hfork : leftTracker.window.Fork rightCall.batch.headers 0 0 :=
    ⟨⟨right, rfl, rfl⟩, nofun⟩
  have hfits : ∀ i j, leftTracker.window.Fork rightCall.batch.headers i j →
      leftTracker.window.height.toNat - (leftTracker.window.size - (i + 1)) +
        (rightCall.batch.headers.length - j) < UInt32.size := by
    intro i j _
    have hheight : leftTracker.window.height.toNat = 1 := rfl
    have hlength : rightCall.batch.headers.length = 1 := rfl
    have hsize : UInt32.size = 4294967296 := rfl
    omega
  have hmoved := (reorganizes_or_asks_once leftTracker rightCall hdistinct (.singleton _)
    (by decide) hfits nofun).2.1 0 0 hfork (by decide)
  exact ⟨hdistinct, hfork, hmoved⟩

end Attestor.Tracker
