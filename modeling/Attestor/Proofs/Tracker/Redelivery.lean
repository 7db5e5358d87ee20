import Attestor.Proofs.Tracker.Reorganization
import Attestor.Proofs.Tracker.Tree

/-! How a chain is cut into batches does not matter to a full window, and neither does it matter
that blocks come again. Every header that stands on the newest block is put there, and as many
blocks as came are dropped at the other end, at the end of a batch or later. When the end of the
chain is delivered anew, the first header that finds its parent takes away the blocks that are
about to be put back, whether the batch starts below the window or in it. Only the one block of
the smallest window cannot find its parent there. -/

namespace Attestor

/-- Taking the end of a list before more is appended makes no difference to the end. -/
theorem rtake_append_rtake {α : Type} (l more : List α) (n : ℕ) :
    (l.rtake n ++ more).rtake n = (l ++ more).rtake n := by
  simp only [List.rtake, List.length_append, List.length_drop]
  have hsplit : l.drop (l.length - n) ++ more = (l ++ more).drop (l.length - n) :=
    (List.drop_append_of_le_length (Nat.sub_le _ _)).symm
  rw [hsplit, List.drop_drop]
  congr 1
  omega

namespace Window

variable {T : BlockTree} {w : Window} {headers run : List Header} {i j : ℕ}

/-- The window with more blocks at its end, of which it keeps the newest `n`. -/
def advance (w : Window) (run : List Header) (n : ℕ) : Window :=
  ⟨(w.hashes ++ run.map Header.id).rtake n, .ofNat (w.height.toNat + run.length)⟩

theorem height_advance {n : ℕ} (hfits : w.height.toNat + run.length < UInt32.size) :
    (w.advance run n).height.toNat = w.height.toNat + run.length :=
  UInt32.toNat_ofNat_of_lt' hfits

theorem advance_nil {n : ℕ} (hsize : w.size ≤ n) : w.advance [] n = w := by
  rw [advance, List.map_nil, List.append_nil, List.rtake, show w.hashes.length - n = 0 from
    Nat.sub_eq_zero_of_le hsize, List.drop_zero, List.length_nil, Nat.add_zero, UInt32.ofNat_toNat]

theorem advance_advance {n : ℕ} (hfits : w.height.toNat + run.length < UInt32.size)
    (more : List Header) : (w.advance run n).advance more n = w.advance (run ++ more) n := by
  rw [advance, height_advance hfits]
  simp only [advance, rtake_append_rtake, List.map_append, List.append_assoc, List.length_append,
    Nat.add_assoc]

theorem size_advance {n : ℕ} (hsize : w.size = n) : (w.advance run n).size = n := by
  simp only [size, advance, List.rtake, List.length_drop, List.length_append] at hsize ⊢
  omega

theorem getLast?_advance {n : ℕ} (hn : 0 < n) (hsize : w.size = n) :
    (w.advance run n).hashes.getLast? = (run.getLast?.map Header.id).or w.hashes.getLast? := by
  have hpos : 0 < (w.hashes ++ run.map Header.id).length := by
    rw [List.length_append]
    exact Nat.add_pos_left (hn.trans_eq hsize.symm) _
  rw [advance, List.rtake, List.getLast?_drop, if_neg (by omega), List.getLast?_append,
    List.getLast?_map]

theorem trim_eq_advance {v : Window} (hhashes : v.hashes = w.hashes ++ run.map Header.id)
    (hheight : v.height.toNat = w.height.toNat + run.length) (n : ℕ) :
    v.trim n = w.advance run n := by
  rw [Window.trim, advance, ← hheight, UInt32.ofNat_toNat, ← hhashes]
  rfl

/-- What stands on the newest block is one higher. -/
theorem InTree.height_next (hw : w.InTree T) (hhas : ∀ h ∈ run, T.Has h)
    (hnext : ∀ h ∈ run.head?, w.hashes.getLast? = some h.parent) :
    ∀ h ∈ run.head?, T.height h.id = w.height.toNat + 1 := by
  intro h hh
  obtain ⟨hmem, hheight⟩ := hw.height_last (hnext h hh)
  obtain ⟨hblock, hparent⟩ := hhas h (List.mem_of_head? hh)
  rw [T.height_eq h.id hblock (hparent ▸ hmem), hparent, hheight]

/-- Headers of the tree that stand on the newest block keep the window on the tree. -/
theorem InTree.advance (hw : w.InTree T) (hrun : Header.Run run) (hhas : ∀ h ∈ run, T.Has h)
    (hnext : ∀ h ∈ run.head?, w.hashes.getLast? = some h.parent)
    (hfits : w.height.toNat + run.length < UInt32.size) (n : ℕ) : (w.advance run n).InTree T := by
  have hheights : ∀ h ∈ run, T.Has h ∧ T.height h.id < UInt32.size := by
    intro h hh
    obtain ⟨i, hi⟩ := List.mem_iff_getElem?.1 hh
    have hlt := (List.getElem?_eq_some_iff.1 hi).1
    have hheight := BlockTree.height_of_run hrun hhas (hw.height_next hhas hnext) hi
    exact ⟨hhas h hh, by omega⟩
  obtain ⟨v, m, hv, hin⟩ := hw.apply hheights 0
  obtain ⟨v', hv', hhashes, hheight⟩ := apply_of_extends (n := 0) hrun hnext hfits
  cases hv.symm.trans hv'
  exact trim_eq_advance hhashes hheight n ▸ hin.trim n

/-! ### The end of the chain anew -/

/-- A header is as far below the newest block as others follow it. -/
theorem InTree.height_add (hw : w.InTree T) (hrun : Header.Run headers)
    (hhas : ∀ h ∈ headers, T.Has h) (hlast : headers.getLast?.map Header.id = w.hashes.getLast?)
    {h : Header} (hj : headers[j]? = some h) :
    T.height h.id + (headers.length - (j + 1)) = w.height.toNat := by
  obtain ⟨first, rest, rfl⟩ :=
    List.exists_cons_of_ne_nil (List.ne_nil_of_mem (List.mem_of_getElem? hj))
  have hplace : ∀ {k g}, (first :: rest)[k]? = some g → T.height g.id = T.height first.id + k :=
    fun hk => BlockTree.height_of_run hrun hhas (by simp) hk
  have hend : (first :: rest)[rest.length]? = some ((first :: rest).getLast (by simp)) := by
    rw [← List.getLast?_eq_some_getLast, List.getLast?_eq_getElem?, List.length_cons,
      Nat.add_sub_cancel]
  rw [List.getLast?_eq_some_getLast (List.cons_ne_nil first rest), Option.map_some] at hlast
  have htop := (hw.height_last hlast.symm).2
  have hlt := (List.getElem?_eq_some_iff.1 hj).1
  rw [hplace hend] at htop
  rw [hplace hj]
  rw [List.length_cons] at hlt ⊢
  omega

/-- Headers that end with the newest block put back as many blocks as they take away. -/
theorem Fork.size_eq (hw : w.InTree T) (hfork : w.Fork headers i j) (hrun : Header.Run headers)
    (hhas : ∀ h ∈ headers, T.Has h)
    (hlast : headers.getLast?.map Header.id = w.hashes.getLast?) :
    i + 1 + (headers.length - j) = w.size := by
  obtain ⟨hi, hj⟩ := hfork.lt
  obtain ⟨⟨h, hget, hparentAt⟩, -⟩ := hfork
  obtain ⟨hmem, hbelow⟩ := hw.block i _ hparentAt
  obtain ⟨hblock, hparent⟩ := hhas h (List.mem_of_getElem? hget)
  have hnext := T.height_eq h.id hblock (hparent ▸ hmem)
  have habove := hw.height_add hrun hhas hlast hget
  rw [hparent] at hnext
  omega

/-- In a window of two blocks or more the parent of the newest one can be found. -/
theorem exists_fork_of_getLast? (hw : w.InTree T) (htwo : 2 ≤ w.size)
    (hhas : ∀ h ∈ headers, T.Has h)
    (hlast : headers.getLast?.map Header.id = w.hashes.getLast?) :
    ∃ i j, w.Fork headers i j := by
  refine (w.fork_or_unrelated headers).resolve_right fun hnone => ?_
  simp only [size] at htwo
  have htop : w.hashes.length - 2 + 1 < w.hashes.length := by omega
  have hlink := hw.chain.getElem (w.hashes.length - 2) htop
  have hnewest : w.hashes.getLast? = some w.hashes[w.hashes.length - 2 + 1] := by
    rw [← List.getElem?_eq_getElem htop, List.getLast?_eq_getElem?]
    congr 1
    omega
  rw [hnewest, Option.map_eq_some_iff] at hlast
  obtain ⟨h, hh, hid⟩ := hlast
  have hmem := List.mem_of_getLast? hh
  refine hnone h hmem ?_
  rw [← (hhas h hmem).2, hid, hlink]
  exact List.getElem_mem _

end Window

namespace Tracker

variable {T : BlockTree} {t t' : Tracker} {b : HeaderBatch} {run : List Header}

theorem handle_of_absorb (ha : t.absorb b = .ok (t', false)) : t.handle b = pure t' := by
  rw [handle, ha]
  rfl

/-- A batch on top of a full window. -/
theorem handle_of_extends (hfull : t.window.size = t.offset) (hne : b.headers ≠ [])
    (hlen : b.start.toNat + b.headers.length ≤ UInt32.size) (hrun : Header.Run b.headers)
    (hnext : ∀ h ∈ b.headers.head?, t.window.hashes.getLast? = some h.parent)
    (hfits : t.window.height.toNat + b.headers.length < UInt32.size) :
    t.handle b = pure { t with window := t.window.advance b.headers t.offset } := by
  obtain ⟨w, happly, hhashes, hheight⟩ := Window.apply_of_extends (n := 0) hrun hnext hfits
  have hpos := List.length_pos_iff.2 hne
  have hsize : w.size = t.window.size + b.headers.length := by
    rw [Window.size, hhashes, List.length_append, List.length_map]
    rfl
  refine handle_of_absorb ?_
  rw [absorb_eq_of_apply hne hlen happly, if_neg (by omega),
    Window.trim_eq_advance hhashes hheight]

/-- Batches that follow one another on top of a full window. -/
theorem foldlM_handle_of_extends (batches : List HeaderBatch) (hfull : t.window.size = t.offset)
    (hbatches : ∀ b ∈ batches, b.headers ≠ [] ∧
      b.start.toNat + b.headers.length ≤ UInt32.size)
    (hrun : Header.Run (batches.flatMap HeaderBatch.headers))
    (hnext : ∀ h ∈ (batches.flatMap HeaderBatch.headers).head?,
      t.window.hashes.getLast? = some h.parent)
    (hfits : t.window.height.toNat + (batches.flatMap HeaderBatch.headers).length <
      UInt32.size) :
    batches.foldlM handle t = pure { t with
      window := t.window.advance (batches.flatMap HeaderBatch.headers) t.offset } := by
  induction batches generalizing t with
  | nil =>
    rw [List.flatMap_nil, Window.advance_nil hfull.le]
    rfl
  | cons b rest ih =>
    obtain ⟨⟨hne, hlen⟩, hrest⟩ := List.forall_mem_cons.1 hbatches
    rw [List.flatMap_cons] at hrun hnext hfits ⊢
    obtain ⟨hrunb, hrunrest, hlink⟩ := List.isChain_append.1 hrun
    rw [List.length_append] at hfits
    have hheight : (t.window.advance b.headers t.offset).height.toNat =
        t.window.height.toNat + b.headers.length := Window.height_advance (by omega)
    rw [List.head?_append_of_ne_nil _ hne] at hnext
    rw [List.foldlM_cons, handle_of_extends hfull hne hlen hrunb hnext (by omega), pure_bind, ih]
    · rw [Window.advance_advance (by omega)]
    · exact Window.size_advance hfull
    · exact hrest
    · exact hrunrest
    · intro h hh
      rw [Window.getLast?_advance t.offset_pos hfull, List.getLast?_eq_some_getLast hne]
      exact congrArg some (hlink _ (List.getLast?_eq_some_getLast hne) h hh).symm
    · simp only [hheight]
      omega

/-- A batch that ends with the newest block of a full window changes nothing. -/
theorem handle_redelivered (hw : t.window.InTree T) (hfull : t.window.size = t.offset)
    (htwo : 2 ≤ t.offset) (hlen : b.start.toNat + b.headers.length ≤ UInt32.size)
    (hrun : Header.Run b.headers) (hhas : ∀ h ∈ b.headers, T.Has h)
    (hlast : b.headers.getLast?.map Header.id = t.window.hashes.getLast?) :
    t.handle b = pure t := by
  obtain ⟨i, j, hfork⟩ := Window.exists_fork_of_getLast? hw (hfull ▸ htwo) hhas hlast
  have hsize := hfork.size_eq hw hrun hhas hlast
  obtain ⟨hi, hj⟩ := hfork.lt
  have hbelow := hw.size_le
  have hheight : t.window.height.toNat - (t.window.size - (i + 1)) + (b.headers.length - j) =
      t.window.height.toNat := by
    omega
  obtain ⟨w, ha, hhashes, hwheight⟩ := absorb_of_fork hw.nodup hrun hlen hfork
    (by rw [hheight]; exact t.window.height.toNat_lt_size) (by omega)
  obtain ⟨top, htop, hid⟩ := Option.map_eq_some_iff.1 (hlast.trans
    (List.getLast?_eq_some_getLast (List.ne_nil_of_length_pos (Nat.zero_lt_of_lt hi))))
  have hheights : ∀ h ∈ b.headers, T.Has h ∧ T.height h.id < UInt32.size := fun h hh => by
    obtain ⟨k, hk⟩ := List.mem_iff_getElem?.1 hh
    have := hw.height_add hrun hhas hlast hk
    have := t.window.height.toNat_lt_size
    exact ⟨hhas h hh, by omega⟩
  have hin : w.InTree T := inTree_absorb hw hheights ha
  have hlength : (t.window.hashes.take (i + 1) ++ (b.headers.drop j).map Header.id).length =
      t.offset := by
    rw [List.length_append, List.length_map, List.length_drop, List.length_take_of_le hi]
    omega
  rw [List.rtake, hlength, Nat.sub_self, List.drop_zero] at hhashes
  have hsame : w = t.window := by
    refine hin.eq_of_getLast? hw ?_ (d := top.id) ?_ (hlast ▸ by rw [htop]; rfl)
    · rw [Window.size, hhashes, hlength, hfull]
    · rw [hhashes, List.getLast?_append, List.getLast?_map, List.getLast?_drop,
        if_neg (by omega), htop]
      rfl
  rw [hsame] at ha
  exact handle_of_absorb ha

/-- The tracker with more blocks on top of its window. -/
def advance (t : Tracker) (run : List Header) : Tracker :=
  { t with window := t.window.advance run t.offset }

/-- However linked headers on top of a full window are cut into batches, they leave the same
window. If it is of two blocks or more, headers of the tree that end with its newest block leave
it as it is, no matter where they begin. Nobody is asked anything. -/
theorem batches_and_redelivery_agree (hw : t.window.InTree T) (hfull : t.window.size = t.offset)
    (hrun : Header.Run run) (hhas : ∀ h ∈ run, T.Has h)
    (hnext : ∀ h ∈ run.head?, t.window.hashes.getLast? = some h.parent)
    (hfits : t.window.height.toNat + run.length < UInt32.size) :
    (∀ batches : List HeaderBatch,
      (∀ b ∈ batches, b.headers ≠ [] ∧ b.start.toNat + b.headers.length ≤ UInt32.size) →
      batches.flatMap HeaderBatch.headers = run → batches.foldlM handle t = pure (t.advance run)) ∧
    (2 ≤ t.offset → ∀ again : HeaderBatch,
      again.start.toNat + again.headers.length ≤ UInt32.size → Header.Run again.headers →
      (∀ h ∈ again.headers, T.Has h) →
      again.headers.getLast?.map Header.id = (t.advance run).window.hashes.getLast? →
      (t.advance run).handle again = pure (t.advance run)) := by
  constructor
  · rintro batches hbatches rfl
    exact foldlM_handle_of_extends batches hfull hbatches hrun hnext hfits
  · intro htwo again hlen hagain hhasagain hlast
    exact handle_redelivered (hw.advance hrun hhas hnext hfits t.offset)
      (Window.size_advance hfull) htwo hlen hagain hhasagain hlast

/-! ### Two blocks on top of two others -/

open BlockTree (genesis left path path_at)

/-- The name of the block two below the first header, and of one that is below that. -/
def lower : Digest := .replicate 32 1

def lowest : Digest := .replicate 32 2

theorem nodup_path : [lowest, lower, Digest.zero, genesis.id, left.id].Nodup := by decide +kernel

def pathTree : BlockTree := path lowest [lower, Digest.zero, genesis.id, left.id] nodup_path

def pathTracker : Tracker := ⟨2, Nat.two_pos, ⟨[lower, Digest.zero], 1⟩⟩

theorem has_path : ∀ h ∈ [genesis, left], pathTree.Has h := by
  simp only [List.forall_mem_cons, List.not_mem_nil, false_implies, implies_true, and_true]
  obtain ⟨hgenesis, -, hzero⟩ := path_at nodup_path (i := 2) rfl
  obtain ⟨hleft, -, hparent⟩ := path_at nodup_path (i := 3) rfl
  exact ⟨⟨hgenesis, Option.some.inj hzero⟩, ⟨hleft, Option.some.inj hparent⟩⟩

theorem inTree_path : pathTracker.window.InTree pathTree := by
  obtain ⟨-, -, hlink⟩ := path_at nodup_path (i := 1) rfl
  refine ⟨List.isChain_pair.2 (Option.some.inj hlink), fun i d hd => ?_⟩
  match i with
  | 0 =>
    cases hd
    obtain ⟨hmem, hheight, -⟩ := path_at nodup_path (i := 0) rfl
    exact ⟨hmem, congrArg (· + 2) hheight⟩
  | 1 =>
    cases hd
    obtain ⟨hmem, hheight, -⟩ := path_at nodup_path (i := 1) rfl
    exact ⟨hmem, congrArg (· + 2) hheight⟩
  | i + 2 => cases hd

/-- Two blocks that come one by one, both at once, and once more. -/
theorem batches_and_redelivery_agree_path : pathTracker.window.InTree pathTree ∧
    pathTracker.window.size = pathTracker.offset ∧ Header.Run [genesis, left] ∧
    [⟨2, [genesis]⟩, ⟨3, [left]⟩].foldlM handle pathTracker =
      pure (pathTracker.advance [genesis, left]) ∧
    [⟨2, [genesis, left]⟩].foldlM handle pathTracker =
      pure (pathTracker.advance [genesis, left]) ∧
    (pathTracker.advance [genesis, left]).handle ⟨2, [genesis, left]⟩ =
      pure (pathTracker.advance [genesis, left]) ∧
    (pathTracker.advance [genesis, left]).window.hashes = [genesis.id, left.id] ∧
    (pathTracker.advance [genesis, left]).window.height = 3 := by
  have hrun : Header.Run [genesis, left] := List.isChain_pair.2 rfl
  have hnext : ∀ h ∈ [genesis, left].head?,
      pathTracker.window.hashes.getLast? = some h.parent := by
    intro h hh
    cases hh
    rfl
  obtain ⟨hbatches, hagain⟩ :=
    batches_and_redelivery_agree inTree_path rfl hrun has_path hnext (by decide)
  exact ⟨inTree_path, rfl, hrun, hbatches _ (by simp; decide) rfl, hbatches _ (by simp; decide) rfl,
    hagain le_rfl _ (by decide) hrun has_path rfl, rfl, rfl⟩

end Tracker

end Attestor
