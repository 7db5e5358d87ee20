import Attestor.Config
import Attestor.Proofs.Chain.Tree
import Attestor.Proofs.Tracker.Visible
import Attestor.Proofs.Window.Snapshot

/-! Trackers whose window is stored and taken over again. What cannot be read as a window changes
nothing. A fresh tracker that takes over the window of an old one ends at the same block; it has
the whole window and signs against the same block if there were at most 255 blocks. Of more blocks
the stored form leaves out the oldest, and then the tracker lacks the one that it signed against
until it rebuilds its window. -/

namespace Attestor

namespace Window

theorem hashes_trim_suffix (w : Window) (n : ℕ) : (w.trim n).hashes <:+ w.hashes :=
  List.drop_suffix _ _

/-- Trimming leaves the newest block in its place. -/
theorem tip?_trim (w : Window) {n : ℕ} (hn : 0 < n) : (w.trim n).tip? = w.tip? := by
  rw [tip?, tip?, hashes_trim, height_trim, List.getLast?_drop]
  split_ifs with hall
  · have hempty : w.hashes = [] := List.length_eq_zero_iff.1 (by simp only [size] at hall; omega)
    rw [hempty]
    rfl
  · rfl

end Window

namespace Tracker

variable {offset : ℕ} {t t' : Tracker} {b : HeaderBatch}

/-! ### Taking over what is stored -/

theorem run_restore (s : Stored) (t : Tracker) : (restore s).run t =
    match s.window with
    | .ok none => (.ok (), t)
    | .ok (some w) => (.ok (), { t with window := w.trim t.offset })
    | .error e => (.error e, t) := by
  rw [restore]
  rcases s.window with e | _ | w <;> rfl

theorem run_restore_of_refused (t : Tracker) {bytes : Bytes}
    (h : ∀ w, Window.decode bytes ≠ .ok w) : ∃ fault : Window.Snapshot.Fault,
      (restore (.file bytes)).run t = (.error (.malformed .headerSnapshot fault.message), t) := by
  cases hdecode : Window.decode bytes with
  | ok w => exact absurd hdecode (h w)
  | error fault =>
    refine ⟨fault, ?_⟩
    rw [run_restore, Stored.window, hdecode]

/-- Bytes are read as a window if they are six or more, of which the first is zero and the sixth
counts the blocks of 32 bytes behind it; they are then the stored form of that window. The stored
form of any window is read, as the newest 255 blocks of it. What is refused changes no tracker. -/
theorem snapshots_read_or_refused :
    (∀ bytes, (∃ w, Window.decode bytes = .ok w) ↔ 6 ≤ bytes.length ∧ bytes[0]? = some 0 ∧
      ∃ count, bytes[5]? = some count ∧ (bytes.drop 6).length = 32 * count.toNat) ∧
    (∀ bytes w, Window.decode bytes = .ok w → w.encode = bytes) ∧
    (∀ w : Window, ∃ v, Window.decode w.encode = .ok v ∧ v.height = w.height ∧
      v.hashes = w.hashes.drop (w.size - min w.size 255) ∧ v.size = min w.size 255 ∧
      (w.size ≤ 255 → v = w)) ∧
    ∀ (t : Tracker) (bytes : Bytes), (∀ w, Window.decode bytes ≠ .ok w) →
      ∃ fault : Window.Snapshot.Fault, (restore (.file bytes)).run t =
        (.error (.malformed .headerSnapshot fault.message), t) := by
  refine ⟨fun bytes => Window.exists_decode_iff, fun bytes w h => (Window.decode_eq_ok.1 h).2.symm,
    fun w => ⟨w.trim 255, w.decode_encode, w.height_trim 255, ?_, ?_, Window.trim_of_size_le⟩,
    fun t bytes h => run_restore_of_refused t h⟩
  · have hdrop : w.size - 255 = w.size - min w.size 255 := by omega
    rw [Window.hashes_trim, hdrop]
  · rw [Window.size_trim, min_comm]

/-- A window of one block more than is stored, a file of six bytes, a shorter one, and one that
counts a block and holds none. -/
theorem snapshots_read_or_refused_at_bounds :
    (∃ v, Window.decode (Window.encode ⟨List.replicate 256 Digest.zero, 300⟩) = .ok v ∧
      v.height = 300 ∧ v.size = 255) ∧
    Window.encode ⟨[], 300⟩ = [0, 44, 1, 0, 0, 0] ∧
    (¬∃ w, Window.decode [0, 44, 1, 0, 0] = .ok w) ∧
    ∃ fault : Window.Snapshot.Fault, (restore (.file [0, 44, 1, 0, 0, 1])).run (new 5) =
      (.error (.malformed .headerSnapshot fault.message), new 5) := by
  obtain ⟨haccepts, hback, hforward, hrefused⟩ := snapshots_read_or_refused
  have hempty : Window.decode [0, 44, 1, 0, 0, 0] = .ok ⟨[], 300⟩ :=
    Window.decode_cons_eq_ok.2 ⟨rfl, rfl, rfl, rfl⟩
  refine ⟨?_, hback _ _ hempty, fun h => absurd ((haccepts _).1 h).1 (by decide),
    hrefused _ _ ?_⟩
  · obtain ⟨v, hv, hheight, -, hsize, -⟩ := hforward ⟨List.replicate 256 Digest.zero, 300⟩
    refine ⟨v, hv, hheight, hsize.trans ?_⟩
    rw [Window.size, List.length_replicate]
    rfl
  · intro w hw
    obtain ⟨-, -, count, hcount, hlength⟩ := (haccepts _).1 ⟨w, hw⟩
    cases hcount
    cases hlength

/-! ### What is stored -/

/-- The states of a tracker from the first one on, whatever batches it gets, whatever it is
answered and whatever it takes over. -/
inductive Reachable (offset : ℕ) : Tracker → Prop
  | new : Reachable offset (Tracker.new offset)
  | absorbed {t t' : Tracker} {b : HeaderBatch} {must : Bool} (h : Reachable offset t)
      (ha : t.absorb b = .ok (t', must)) : Reachable offset t'
  | handled {t t' : Tracker} {c : Call} (h : Reachable offset t)
      (hc : (c.run t []).1 = some t') : Reachable offset t'
  | rebuilt {t t' : Tracker} {c : Call} (h : Reachable offset t)
      (hc : ((Prod.fst <$> t.rebuild).run c.answer []).1 = some t') : Reachable offset t'
  | restored {t : Tracker} (h : Reachable offset t) (s : Stored) :
      Reachable offset ((restore s).run t).2

/-- No more blocks are kept than are needed. -/
structure Bounded (offset : ℕ) (t : Tracker) : Prop where
  offset_eq : t.offset = offset
  size_le : t.window.size ≤ offset

theorem bounded_new (hpos : 0 < offset) : Bounded offset (Tracker.new offset) :=
  ⟨Nat.max_eq_left hpos, Nat.zero_le _⟩

theorem Bounded.trim (h : Bounded offset t) (w : Window) :
    Bounded offset { t with window := w.trim t.offset } :=
  ⟨h.offset_eq, by simp only [Window.size_trim, h.offset_eq, min_le_left]⟩

theorem Bounded.absorb {must : Bool} (h : Bounded offset t) (ha : t.absorb b = .ok (t', must)) :
    Bounded offset t' := by
  rcases absorb_eq_ok ha with ⟨-, rfl, -⟩ | ⟨-, w, linked, -, ⟨-, rfl, -⟩ | ⟨-, rfl, -⟩⟩
  · exact h
  · exact ⟨h.offset_eq, Nat.zero_le _⟩
  · exact h.trim w

theorem Bounded.settled {r : Except Node.Error HeaderBatch} (h : Bounded offset t)
    (hs : t.settled r = some t') : Bounded offset t' := by
  cases r with
  | error e =>
    cases hs
    exact h
  | ok b =>
    simp only [Tracker.settled] at hs
    split at hs
    next w _ =>
      cases hs
      exact h.trim w
    next =>
      cases hs
      exact h
    next => cases hs

theorem Bounded.restored (h : Bounded offset t) (s : Stored) :
    Bounded offset ((restore s).run t).2 := by
  rw [run_restore]
  rcases s.window with e | _ | w
  · exact h
  · exact h
  · exact h.trim w

theorem Reachable.bounded (hpos : 0 < offset) (h : Reachable offset t) : Bounded offset t := by
  induction h with
  | new => exact bounded_new hpos
  | absorbed _ ha ih => exact ih.absorb ha
  | handled _ hc ih =>
    obtain ⟨u, must, ha, ⟨-, rfl, -⟩ | ⟨-, -, hs, -⟩⟩ := Call.run_eq_some (Prod.ext hc rfl)
    · exact ih.absorb ha
    · exact (ih.absorb ha).settled hs
  | rebuilt _ hc ih =>
    rw [run_rebuild] at hc
    split at hc
    next =>
      cases hc
      exact ih
    next => exact ih.settled hc
  | restored _ s ih => exact ih.restored s

/-! ### Restarts -/

/-- A tracker takes over the newest blocks of a stored window, as many as it needs, whatever it
held before. -/
theorem run_restore_save (t u : Tracker) : (restore (.file t.save)).run u =
    (.ok (), { u with window := (t.window.trim 255).trim u.offset }) := by
  have hstored : (Stored.file t.save).window = .ok (some (t.window.trim 255)) := by
    rw [Stored.window, save, Window.decode_encode]
  rw [run_restore, hstored]

/-- The second tracker ends at the same block as the first, holds as many and signs against the
same. -/
structure Resumes (t t' : Tracker) : Prop where
  tip : t'.window.tip? = t.window.tip?
  size : t'.window.size = t.window.size
  signingBlock : t'.signingBlock = t.signingBlock

/-- After a restart a tracker differs by the blocks that are not stored. -/
theorem Bounded.restart (h : Bounded offset t) : (restore (.file t.save)).run (new offset) =
    (.ok (), { t with window := t.window.trim 255 }) := by
  have hoffset : (new offset).offset = t.offset := by
    have := t.offset_pos
    rw [h.offset_eq] at this ⊢
    exact Nat.max_eq_left this
  -- the fresh tracker needs as many blocks, so it takes over all that are stored
  have hsize : (t.window.trim 255).size ≤ t.offset := by
    rw [Window.size_trim, h.offset_eq]
    exact (min_le_right _ _).trans h.size_le
  simp only [run_restore_save, hoffset, Window.trim_of_size_le hsize]

theorem signingBlock_of_size_lt (h : t.window.size < t.offset) :
    t.signingBlock = .error (.insufficientHeaders t.window.size t.offset) := by
  rw [signingBlock, if_pos h]

/-- The tracker that is restarted ends at the same block as before. If there were at most 255
blocks it goes on as before; of more it has the newest 255, which are too few to sign. -/
theorem restart_keeps_newest (hpos : 0 < offset) (h : Reachable offset t) :
    ∃ t', (restore (.file t.save)).run (new offset) = (.ok (), t') ∧ t'.offset = offset ∧
      t'.window.tip? = t.window.tip? ∧ (t.window.size ≤ 255 → Resumes t t') ∧
      (255 < t.window.size → 255 < offset ∧ t'.window.size = 255 ∧
        t'.window.hashes <:+ t.window.hashes ∧
        t'.signingBlock = .error (.insufficientHeaders 255 offset)) := by
  have hbounded := h.bounded hpos
  refine ⟨{ t with window := t.window.trim 255 }, hbounded.restart, hbounded.offset_eq,
    t.window.tip?_trim (by decide), fun hall => ?_, fun hmore => ?_⟩
  · rw [Window.trim_of_size_le hall]
    exact ⟨rfl, rfl, rfl⟩
  · have hneeds : 255 < offset := hmore.trans_le hbounded.size_le
    have hsize : (t.window.trim 255).size = 255 :=
      (Window.size_trim _ _).trans (min_eq_left hmore.le)
    have htooFew : (t.window.trim 255).size < t.offset := by
      rw [hsize, hbounded.offset_eq]
      exact hneeds
    refine ⟨hneeds, hsize, t.window.hashes_trim_suffix 255, ?_⟩
    rw [signingBlock_of_size_lt (t := { t with window := t.window.trim 255 }) htooFew, hsize,
      hbounded.offset_eq]

/-! ### A tracker that needs more blocks than are stored -/

open BlockTree (genesis)

/-- Blocks one above the other, by number. -/
def tower : ℕ → Header
  | 0 => genesis
  | n + 1 => { genesis with parent := (tower n).id }

theorem run_tower (n : ℕ) : Header.Run ((List.range n).map tower) := by
  rw [Header.Run, List.isChain_map]
  exact (List.isChain_range _ n).2 fun _ _ => rfl

/-- A tracker that has as many of them as it needs. -/
def full (n : ℕ) (hpos : 0 < n) : Tracker :=
  ⟨n, hpos, ⟨((List.range n).map tower).map Header.id, .ofNat (n - 1)⟩⟩

section Full

variable {n : ℕ} (hpos : 0 < n)

theorem size_full : (full n hpos).window.size = n := by
  simp only [full, Window.size, List.length_map, List.length_range]

theorem toNat_height_full (hn : n ≤ UInt32.size) :
    (full n hpos).window.height.toNat = n - 1 :=
  UInt32.toNat_ofNat_of_lt' (by omega)

/-- The node answers the first request with so many blocks. -/
theorem reachable_full (hn : n ≤ UInt32.size) : Reachable n (full n hpos) := by
  have hw : Window.ofBatch ⟨0, (List.range n).map tower⟩ = .ok (full n hpos).window := by
    have hheight := toNat_height_full hpos hn
    refine Window.ofBatch_eq_ok.2 ⟨run_tower n, rfl, .inr ⟨?_, ?_⟩⟩
    · simpa using hpos.ne'
    · rw [List.length_map, List.length_range, hheight, UInt32.toNat_zero]
      omega
  have hoffset : (new n).offset = n := Nat.max_eq_left hpos
  have hsettled : (new n).settled (.ok ⟨0, (List.range n).map tower⟩) = some (full n hpos) := by
    simp only [settled, hw, hoffset, Window.trim_of_size_le (size_full hpos).le]
    rfl
  refine .rebuilt (c := ⟨default, false, .ok ⟨0, (List.range n).map tower⟩⟩) .new ?_
  rw [run_rebuild]
  exact hsettled

theorem signingBlock_full (hn : n < UInt32.size) :
    (full n hpos).signingBlock = .ok (genesis.id, 0) := by
  have hoffset : (full n hpos).offset = n := rfl
  have holdest : (full n hpos).window.hashes[0]? = some genesis.id := by
    simp only [full, List.getElem?_map, List.getElem?_range hpos, Option.map_some]
    rfl
  simp only [signingBlock, size_full, hoffset, lt_irrefl, if_false, Nat.sub_self, holdest,
    toNat_height_full hpos hn.le]
  rfl

end Full

/-- Variables of a configuration that is accepted, with a depth of 256. -/
def deepVariables : Config.Variables
  | "ORACLE_KEY" => some "0000000000000000000000000000000000000000000000000000000000000001"
  | "DATABASE_URL" => some "postgres://localhost/oracle"
  | "NODE_RPC_URL" => some "http://localhost:8332"
  | "HEADER_OFFSET" => some "256"
  | _ => none

theorem headerOffset_deepVariables :
    (Config.ofVariables deepVariables).map Config.headerOffset = .ok 256 := by
  decide +kernel

theorem reachable_full_256 : Reachable 256 (full 256 (by decide)) :=
  reachable_full _ (by decide)

/-- What the configuration accepts may be more than is stored: a tracker that signed against the
oldest of 256 blocks has too few after a restart. -/
theorem not_forall_resumes : ¬∀ (vars : Config.Variables) (c : Config) (t : Tracker),
    Config.ofVariables vars = .ok c → Reachable c.headerOffset.toNat t →
      ∃ t', (restore (.file t.save)).run (new c.headerOffset.toNat) = (.ok (), t') ∧
        Resumes t t' := by
  intro hall
  have haccepted := headerOffset_deepVariables
  cases hc : Config.ofVariables deepVariables with
  | error e =>
    rw [hc] at haccepted
    cases haccepted
  | ok c =>
    rw [hc] at haccepted
    have hoffset : c.headerOffset.toNat = 256 := congrArg UInt64.toNat (Except.ok.inj haccepted)
    obtain ⟨t', hrestart, hresumes⟩ := hall _ c _ hc (by rw [hoffset]; exact reachable_full_256)
    rw [hoffset, (reachable_full_256.bounded (by decide)).restart] at hrestart
    cases hrestart
    have hsize := hresumes.size
    rw [Window.size_trim, size_full] at hsize
    exact absurd hsize (by decide)

/-- With 255 blocks a tracker goes on as before, with one more it does not. -/
theorem restart_full_at_bounds :
    (∃ t', (restore (.file (full 255 (by decide)).save)).run (new 255) = (.ok (), t') ∧
      Resumes (full 255 (by decide)) t') ∧
    Reachable 256 (full 256 (by decide)) ∧
    (full 256 (by decide)).signingBlock = .ok (genesis.id, 0) ∧
    ∃ t', (restore (.file (full 256 (by decide)).save)).run (new 256) = (.ok (), t') ∧
      t'.window.tip? = (full 256 (by decide)).window.tip? ∧ t'.window.size = 255 ∧
      t'.signingBlock = .error (.insufficientHeaders 255 256) := by
  have hreached : Reachable 255 (full 255 (by decide)) := reachable_full _ (by decide)
  obtain ⟨u, hall, -, -, hresumes, -⟩ := restart_keeps_newest (by decide) hreached
  obtain ⟨t', hrestart, -, htip, -, hmore⟩ := restart_keeps_newest (by decide) reachable_full_256
  obtain ⟨-, hsize, -, hsigning⟩ := hmore (by rw [size_full]; decide)
  exact ⟨⟨u, hall, hresumes (size_full _).le⟩, reachable_full_256, signingBlock_full _ (by decide),
    t', hrestart, htip, hsize, hsigning⟩

end Tracker

end Attestor
