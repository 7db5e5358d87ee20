import Attestor.Proofs.Follower.Convergence
import Attestor.Proofs.Follower.Scan

/-! Which blocks are scanned when the node's chain changes between polls. A change may replace
blocks that were delivered, but no deeper than the window reaches and never so that the chain ends
below the last of them. The follower remembers that one block only: if it is still there, so is all
that lies below it, and else the walk goes back below everything that can have been replaced. It
may end before it is back where it was, and the chain may change again by then; still the blocks of
the chain below the next height have all been scanned, from any height on that a poll went on at. -/

namespace Attestor.Follower

/-- A poll that is over: who answered it, what it asked, and the height it went on at. -/
structure Pass where
  env : Environment
  transcript : Transcript
  height : UInt32

/-- A follower that has polled for a while, the node's chain at the last poll, and all the polls,
the last one first. -/
structure Journey where
  session : Session
  chain : List Header
  passes : List Pass

namespace Journey

/-- What the next poll may find. The node never fails and its chain is of the tree; the chain
reaches the last block that was delivered, and is the same as before where it lies `offset` blocks
or more below that. A start height that is set lies on the first chain. -/
structure Allows (T : BlockTree) (j : Journey) (turn : Turn) : Prop where
  serves : Serves turn.node turn.env
  branch : T.Branch turn.node.headers
  start : j.passes = [] → ∀ n ∈ j.session.follower.start, n.toNat < turn.node.headers.length
  reaches : ∀ height d, j.session.follower.last = some (height, d) →
    height.toNat < turn.node.headers.length
  keeps : ∀ height d, j.session.follower.last = some (height, d) →
    ∀ i, i + j.session.tracker.offset ≤ height.toNat → turn.node.headers[i]? = j.chain[i]?

/-- The journey with one more poll. -/
def after (j : Journey) (turn : Turn) (height : UInt32) (s : Session) (l : Transcript) : Journey :=
  ⟨s, turn.node.headers, ⟨turn.env, l, height⟩ :: j.passes⟩

end Journey

/-- The journeys of a follower. Every poll is told of a new transcript, since who answers may have
changed. -/
inductive Travels (T : BlockTree) (s₀ : Session) : Journey → Prop
  | start : Travels T s₀ ⟨s₀, [], []⟩
  | poll {j : Journey} {turn : Turn} {height : UInt32} {r : Except Error ℕ} {s : Session}
      {l : Transcript} (hj : Travels T s₀ j) (hturn : j.Allows T turn)
      (hheight : chosen turn.env j.session [] = some height)
      (hp : exec turn.env poll j.session [] = (some (r, s), l)) :
      Travels T s₀ (j.after turn height s l)

/-- One of the polls fetched the block and handed its transactions on. -/
def ScannedIn (passes : List Pass) (d : Digest) : Prop :=
  ∃ p ∈ passes, Scanned p.env p.transcript d

/-- Below a height all blocks have been scanned, from any height on that a poll went on at. -/
def Covers (chain : List Header) (passes : List Pass) (next : ℕ) : Prop :=
  ∀ p ∈ passes, ∀ i h, p.height.toNat ≤ i → i < next → chain[i]? = some h →
    ScannedIn passes h.id

/-- The last block that was delivered is one of the chain, just below a height. -/
def Stands (chain : List Header) (s : Session) (next : UInt32) : Prop :=
  ∃ (height : UInt32) (h : Header), s.follower.last = some (height, h.id) ∧
    next.toNat = height.toNat + 1 ∧ chain[height.toNat]? = some h

variable {T : BlockTree} {node : Node.Memory} {env : Environment} {s s' : Session}
  {l l' : Transcript} {chain chain' : List Header} {tip next last : UInt32} {passes : List Pass}

theorem Delivered.stands (hd : Delivered chain s next) : Stands chain s next := by
  obtain ⟨height, h, hlast, hnext, hget, -⟩ := hd
  exact ⟨height, h, hlast, hnext, hget⟩

theorem Stands.le_length (hs : Stands chain s next) : next.toNat ≤ chain.length := by
  obtain ⟨height, h, -, hnext, hget⟩ := hs
  have := (List.getElem?_eq_some_iff.1 hget).1
  omega

/-- What was covered still is, up to where the chain has changed. -/
theorem Covers.of_same {n : ℕ} (h : Covers chain passes n)
    (hsame : ∀ i < n, (chain'.map Header.id)[i]? = (chain.map Header.id)[i]?) :
    Covers chain' passes n := by
  intro p hp i g hi hlt hget
  have hid := hsame i hlt
  rw [List.getElem?_map, hget, Option.map_some, List.getElem?_map] at hid
  obtain ⟨g', hg', hgid⟩ := Option.map_eq_some_iff.1 hid.symm
  exact hgid ▸ h p hp i g' hi hlt hg'

/-- A poll covers what it scanned on top of what was covered when it went on. -/
theorem Covers.cons {p : Pass} {following : ℕ} (h : Covers chain passes p.height.toNat)
    (hnew : ∀ i g, p.height.toNat ≤ i → i < following → chain[i]? = some g →
      Scanned p.env p.transcript g.id) : Covers chain (p :: passes) following := by
  intro q hq i g hi hlt hget
  rcases Nat.lt_or_ge i p.height.toNat with hbelow | habove
  · rcases List.mem_cons.1 hq with rfl | hq
    · omega
    · obtain ⟨p', hp', hscanned⟩ := h q hq i g hi hbelow hget
      exact ⟨p', List.mem_cons_of_mem _ hp', hscanned⟩
  · exact ⟨p, List.mem_cons_self, hnew i g habove hlt hget⟩

theorem Covers.mono {n m : ℕ} (h : Covers chain passes n) (hle : m ≤ n) :
    Covers chain passes m :=
  fun p hp i g hi hlt => h p hp i g hi (hlt.trans_le hle)

/-- After a change of the chain a poll goes on where the chain is the same up to there. -/
theorem Stands.exec_rewound (hs : Stands chain s next) (hchain : T.Branch chain)
    (hserves : Serves node env) (hc : T.Branch node.headers)
    (htip : tip.toNat + 1 = node.headers.length) (hoffset : s.tracker.offset < UInt32.size)
    (hreaches : ∀ height d, s.follower.last = some (height, d) →
      height.toNat < node.headers.length)
    (hkeeps : ∀ height d, s.follower.last = some (height, d) →
      ∀ i, i + s.tracker.offset ≤ height.toNat → node.headers[i]? = chain[i]?)
    (l : Transcript) :
    ∃ n s' l', exec env (rewound tip next) s l = (some (.ok n, s'), l') ∧
      s'.tracker = s.tracker ∧ s'.follower.maxBatch = s.follower.maxBatch ∧
      n.toNat ≤ next.toNat ∧
      (∀ i < n.toNat, (node.headers.map Header.id)[i]? = (chain.map Header.id)[i]?) ∧
      (n.toNat < node.headers.length ∨ Stands node.headers s' n) := by
  obtain ⟨height, h, hlast, hnext, hget⟩ := hs
  have hlt := hreaches height h.id hlast
  obtain ⟨g, hg⟩ : ∃ g, node.headers[height.toNat]? = some g := ⟨_, List.getElem?_eq_getElem hlt⟩
  by_cases hid : g.id = h.id
  · obtain ⟨l', hrewound⟩ := exec_rewound_of_kept hserves (hid ▸ hlast) hg tip next l
    refine ⟨next, s, l', hrewound, rfl, rfl, le_rfl, fun i hi => ?_,
      .inr ⟨height, g, hid ▸ hlast, hnext, hg⟩⟩
    exact hc.eq_below hchain hg hget hid (by omega)
  · have htiple : height.toNat ≤ tip.toNat := by omega
    obtain ⟨n, s', l', hrewound, rfl, hn⟩ :=
      exec_rewound_of_moved hserves hlast hg hid htiple next l
    rw [Nat.mod_eq_of_lt hoffset] at hn
    have hpos := s.tracker.offset_pos
    refine ⟨n, _, l', hrewound, rfl, rfl, by omega, fun i hi => ?_, .inl (by omega)⟩
    rw [List.getElem?_map, List.getElem?_map,
      hkeeps height h.id hlast i (by omega)]

/-- All the blocks of a batch were scanned when it has been taken. -/
theorem scanned_of_take (hserves : Serves node env) {count : ℕ} (hle : next.toNat ≤ last.toNat)
    (hlast : last.toNat < node.headers.length)
    (h : exec env (take tip next last) s l = (some (.ok count, s'), l')) {i : ℕ} {g : Header}
    (hi : next.toNat ≤ i) (hi' : i ≤ last.toNat) (hg : node.headers[i]? = some g) :
    Scanned env l' g.id := by
  obtain ⟨part, hrange, -, -, hget⟩ := Node.Memory.range_eq_ok hle hlast
  rw [take, exec_bind_of_ok (exec_ask env s l _), hserves.reply, Node.Memory.reply, hrange,
    exec_bind_of_ok (exec_orFail env s _ _)] at h
  rcases exec_bind_eq_some h with ⟨e, -, he⟩ | ⟨⟨⟩, s₁, l₁, -, hrest⟩
  · cases he
  rcases exec_bind_eq_some hrest with ⟨e, -, he⟩ | ⟨⟨⟩, s₂, l₂, hobserve, hrecord⟩
  · cases he
  have hmem : g.id ∈ HeaderBatch.ids ⟨next, part⟩ :=
    List.mem_map_of_mem (List.mem_of_getElem? ((hget i hi hi').trans hg))
  exact ((exec_observeBlocks_eq_some hobserve).2 rfl g.id hmem).mono (exec_isPrefix hrecord)

/-- From its height a poll scans all that it leaves below the next one, a whole batch unless the
chain ends first. -/
theorem exec_proceed_scanning (hserves : Serves node env) (hc : T.Branch node.headers)
    (htip : tip.toNat + 1 = node.headers.length) (hw : s.tracker.window.InTree T)
    (hplace : next.toNat < node.headers.length ∨ Stands node.headers s next) (l : Transcript) :
    ∃ count s' l' following, exec env (proceed tip next) s l = (some (.ok count, s'), l') ∧
      s'.tracker.offset = s.tracker.offset ∧ s'.follower.maxBatch = s.follower.maxBatch ∧
      s'.tracker.window.InTree T ∧ s'.follower.next = some following ∧
      Stands node.headers s' following ∧
      min node.headers.length (next.toNat + s.follower.maxBatch.toNat) ≤ following.toNat ∧
      ∀ i h, next.toNat ≤ i → i < following.toNat → node.headers[i]? = some h →
        Scanned env l' h.id := by
  by_cases hcaught : tip < next
  · have hlt := UInt32.lt_iff_toNat_lt.1 hcaught
    rcases hplace with hplace | hplace
    · omega
    · rw [proceed, if_pos hcaught, exec_bind_of_ok (exec_change env s l _)]
      exact ⟨0, _, l, next, rfl, rfl, rfl, hw, rfl, hplace, by omega, fun i h hi hi' => by omega⟩
  · have hend := toNat_batchEnd s.follower.maxBatch tip next
    rw [UInt32.lt_iff_toNat_lt] at hcaught
    have hle : next.toNat ≤ (batchEnd s.follower.maxBatch tip next).toNat := by omega
    have hlast : (batchEnd s.follower.maxBatch tip next).toNat < node.headers.length := by omega
    obtain ⟨count, s', l', following, htake, hoffset, hmax, hnat, hfollowing⟩ :=
      exec_take hserves hc hw hle hlast tip l
    rw [proceed, if_neg (UInt32.lt_iff_toNat_lt.not.2 hcaught),
      exec_bind_of_ok (exec_get env s l)]
    refine ⟨count, s', l', following, htake, hoffset, hmax, hfollowing.inTree, hfollowing.next_eq,
      hfollowing.delivered.stands, by omega, fun i h hi hi' hh => ?_⟩
    exact scanned_of_take hserves hle hlast htake hi (by omega) hh

/-- After at least one poll. -/
structure Walking (T : BlockTree) (j : Journey) (next : UInt32) : Prop where
  branch : T.Branch j.chain
  next_eq : j.session.follower.next = some next
  inTree : j.session.tracker.window.InTree T
  stands : Stands j.chain j.session next
  covers : Covers j.chain j.passes next.toNat

/-- The next poll goes on at a height below which the node's chain is covered. -/
structure Resumes (j : Journey) (turn : Turn) (tip next : UInt32) (s : Session)
    (l : Transcript) : Prop where
  tip_eq : tip.toNat + 1 = turn.node.headers.length
  chooses : exec turn.env choose j.session [] = (some (.ok (tip, next), s), l)
  tracker_eq : s.tracker = j.session.tracker
  maxBatch_eq : s.follower.maxBatch = j.session.follower.maxBatch
  place : next.toNat < turn.node.headers.length ∨ Stands turn.node.headers s next
  covers : Covers turn.node.headers j.passes next.toNat

variable {j : Journey} {turn : Turn} {offset : ℕ} {maxBatch : UInt32}

theorem Walking.resumes (hj : Walking T j next) (hturn : j.Allows T turn)
    (hoffset : j.session.tracker.offset < UInt32.size) :
    ∃ tip n s l, Resumes j turn tip n s l := by
  obtain ⟨tip, htip, hlen⟩ := Node.Memory.tip_eq_ok hturn.branch
  obtain ⟨n, s, l, hrewound, htracker, hmax, hle, hsame, hplace⟩ :=
    hj.stands.exec_rewound hj.branch hturn.serves hturn.branch hlen hoffset hturn.reaches
      hturn.keeps ([] ++ [.node .tip])
  have hlocate : exec turn.env (locate tip) j.session ([] ++ [.node .tip]) =
      (some (.ok n, s), l) := by
    rw [locate, exec_bind_of_ok (exec_get _ _ _)]
    simp only [hj.next_eq]
    exact hrewound
  exact ⟨tip, n, s, l, hlen, exec_choose_of_locate hturn.serves htip hlocate, htracker, hmax,
    hplace, (hj.covers.mono hle).of_same hsame⟩

/-- A follower that has delivered nothing and whose tracker is empty. -/
structure Fresh (j : Journey) : Prop where
  passes_eq : j.passes = []
  next_eq : j.session.follower.next = none
  last_eq : j.session.follower.last = none
  window_eq : j.session.tracker.window = .empty

theorem Fresh.resumes (hj : Fresh j) (hturn : j.Allows T turn)
    (hoffset : j.session.tracker.offset < UInt32.size) :
    ∃ tip n s l, Resumes j turn tip n s l := by
  obtain ⟨tip, htip, hlen⟩ := Node.Memory.tip_eq_ok hturn.branch
  obtain ⟨n, s, l, hlocate, htracker, hmax, hplace⟩ :=
    exec_locate hturn.serves hturn.branch hlen hoffset
      (.empty hj.next_eq hj.last_eq (hturn.start hj.passes_eq) hj.window_eq) ([] ++ [.node .tip])
  refine ⟨tip, n, s, l, hlen, exec_choose_of_locate hturn.serves htip hlocate, htracker, hmax,
    hplace.imp_right Delivered.stands, fun p hp => ?_⟩
  rw [hj.passes_eq] at hp
  cases hp

/-- The poll ends, and leaves the follower on the node's chain with all covered below. -/
theorem Resumes.poll (h : Resumes j turn tip next s l) (hturn : j.Allows T turn)
    (hb : Bounded offset maxBatch j.session) (hw : j.session.tracker.window.InTree T) :
    ∃ count s' l' following, exec turn.env Follower.poll j.session [] = (some (.ok count, s'), l') ∧
      Bounded offset maxBatch s' ∧ Walking T (j.after turn next s' l') following ∧
      min turn.node.headers.length (next.toNat + maxBatch.toNat) ≤ following.toNat := by
  obtain ⟨count, s', l', following, hproceed, hoffset, hmax, hin, hfollowing, hstands, hle,
    hscanned⟩ := exec_proceed_scanning hturn.serves hturn.branch h.tip_eq (h.tracker_eq ▸ hw)
      h.place l
  rw [h.maxBatch_eq, hb.maxBatch_eq] at hmax hle
  rw [h.tracker_eq, hb.offset_eq] at hoffset
  refine ⟨count, s', l', following, ?_, ⟨hoffset, hmax, hb.offset_lt, hb.maxBatch_pos⟩,
    ⟨hturn.branch, hfollowing, hin, hstands, h.covers.cons hscanned⟩, hle⟩
  rw [poll_eq, exec_bind_of_ok h.chooses]
  exact hproceed

/-- What is known of a journey: it has not begun, or the follower has come along a chain. -/
structure Travelled (T : BlockTree) (offset : ℕ) (maxBatch : UInt32) (j : Journey) : Prop where
  bounded : Bounded offset maxBatch j.session
  cases : Fresh j ∨ ∃ next, Walking T j next

/-- A poll that is allowed chooses a height and ends. -/
theorem Travelled.poll (hj : Travelled T offset maxBatch j) (hturn : j.Allows T turn) :
    ∃ height count s l next, chosen turn.env j.session [] = some height ∧
      exec turn.env Follower.poll j.session [] = (some (.ok count, s), l) ∧
      Bounded offset maxBatch s ∧ Walking T (j.after turn height s l) next ∧
      min turn.node.headers.length (height.toNat + maxBatch.toNat) ≤ next.toNat := by
  have hoffset : j.session.tracker.offset < UInt32.size :=
    hj.bounded.offset_eq ▸ hj.bounded.offset_lt
  obtain ⟨⟨tip, height, s₁, l₁, hresumes⟩, hin⟩ :
      (∃ tip n s l, Resumes j turn tip n s l) ∧ j.session.tracker.window.InTree T := by
    rcases hj.cases with hfresh | ⟨next, hwalking⟩
    · exact ⟨hfresh.resumes hturn hoffset, hfresh.window_eq ▸ Window.inTree_empty⟩
    · exact ⟨hwalking.resumes hturn hoffset, hwalking.inTree⟩
  obtain ⟨count, s, l, next, hpoll, hb, hwalking, hle⟩ := hresumes.poll hturn hj.bounded hin
  refine ⟨height, count, s, l, next, ?_, hpoll, hb, hwalking, hle⟩
  rw [chosen, hresumes.chooses]

theorem one_le_max (maxBatch : UInt32) : 1 ≤ (max maxBatch 1).toNat := by
  change 1 ≤ (if maxBatch ≤ 1 then 1 else maxBatch).toNat
  split
  next => decide
  next h =>
    rw [UInt32.le_iff_toNat_le, not_le] at h
    exact h.le

section Journeys

variable {tracker : Tracker} {start : Option UInt32}

theorem Travels.travelled (hoffset : tracker.offset < UInt32.size)
    (hwindow : tracker.window = .empty) (hj : Travels T ⟨.new maxBatch start, tracker⟩ j) :
    Travelled T tracker.offset (max maxBatch 1) j := by
  induction hj with
  | start =>
    exact ⟨⟨rfl, rfl, hoffset, one_le_max maxBatch⟩, .inl ⟨rfl, rfl, rfl, hwindow⟩⟩
  | poll _ hturn hheight hp ih =>
    obtain ⟨height, count, s, l, next, hchosen, hpoll, hb, hwalking, -⟩ := ih.poll hturn
    cases hchosen.symm.trans hheight
    cases hpoll.symm.trans hp
    exact ⟨hb, .inr ⟨next, hwalking⟩⟩

/-- However the chain changed between polls, the blocks of the node's chain below the next height
have all been fetched and their transactions handed on, from the first height on that the follower
went on at and from any later one. And no poll fails or stops short of a whole batch, as long as
the node does not. -/
theorem scanned_of_travels (hoffset : tracker.offset < UInt32.size)
    (hwindow : tracker.window = .empty) (hj : Travels T ⟨.new maxBatch start, tracker⟩ j) :
    (∀ next, j.session.follower.next = some next → ∀ p ∈ j.passes, ∀ i, p.height.toNat ≤ i →
      i < next.toNat → ∃ h, j.chain[i]? = some h ∧
        ∃ q ∈ j.passes, Scanned q.env q.transcript h.id) ∧
    ∀ turn, j.Allows T turn → ∃ height count s l next,
      chosen turn.env j.session [] = some height ∧
      exec turn.env poll j.session [] = (some (.ok count, s), l) ∧
      s.follower.next = some next ∧ next.toNat ≤ turn.node.headers.length ∧
      min turn.node.headers.length (height.toNat + (max maxBatch 1).toNat) ≤ next.toNat := by
  have hkept := hj.travelled hoffset hwindow
  refine ⟨fun next hnext p hp i hi hlt => ?_, fun turn hturn => ?_⟩
  · rcases hkept.cases with hfresh | ⟨next', hw⟩
    · cases hfresh.next_eq.symm.trans hnext
    · cases hw.next_eq.symm.trans hnext
      have hle := hw.stands.le_length
      obtain ⟨h, hh⟩ : ∃ h, j.chain[i]? = some h := ⟨_, List.getElem?_eq_getElem (by omega)⟩
      exact ⟨h, hh, hw.covers p hp i h hi hlt hh⟩
  · obtain ⟨height, count, s, l, next, hchosen, hpoll, -, hwalking, hle⟩ := hkept.poll hturn
    exact ⟨height, count, s, l, next, hchosen, hpoll, hwalking.next_eq, hwalking.stands.le_length,
      hle⟩

end Journeys

open BlockTree (genesis left right fork branch_fork)

/-- A follower that takes two blocks at once, and a tracker that keeps one. -/
def unmoved : Session := ⟨.new 2 none, .new 1⟩

theorem allows_left : Journey.Allows fork ⟨unmoved, [], []⟩ (childTurn left) where
  serves := ⟨rfl, fun _ => rfl, fun _ _ => rfl⟩
  branch := branch_fork (.inl rfl)
  start _ n hn := by cases hn
  reaches height d hlast := by cases hlast
  keeps height d hlast := by cases hlast

theorem allows_right {s : Session} {l : Transcript}
    (hj : Travels fork unmoved (Journey.after ⟨unmoved, [], []⟩ (childTurn left) 1 s l)) :
    (Journey.after ⟨unmoved, [], []⟩ (childTurn left) 1 s l).Allows fork (childTurn right) := by
  have hkept := hj.travelled (by decide) rfl
  obtain ⟨next, hwalking⟩ : ∃ next, Walking fork _ next := by
    refine hkept.cases.resolve_left fun hfresh => ?_
    cases hfresh.passes_eq
  have hoffset : s.tracker.offset = 1 := hkept.bounded.offset_eq
  have hheight : ∀ height d, s.follower.last = some (height, d) → height.toNat < 2 := by
    obtain ⟨height', h, hlast, -, hget⟩ := hwalking.stands
    intro height d hd
    cases hlast.symm.trans hd
    exact (List.getElem?_eq_some_iff.1 hget).1
  refine ⟨⟨rfl, fun _ => rfl, fun _ _ => rfl⟩, branch_fork (.inr rfl), nofun, hheight,
    fun height d hd i hi => ?_⟩
  have hlt := hheight height d hd
  have hi : i + s.tracker.offset ≤ height.toNat := hi
  obtain rfl : i = 0 := by omega
  rfl

/-- The newest block is replaced after the first poll, and the new one is scanned as well. -/
theorem scanned_after_fork : ∃ j, Travels fork unmoved j ∧ j.chain = [genesis, right] ∧
    j.passes.length = 2 ∧ ∃ q ∈ j.passes, Scanned q.env q.transcript right.id := by
  have hoffset : unmoved.tracker.offset < UInt32.size := by decide
  have hbatch : (max 2 1 : UInt32).toNat = 2 := rfl
  have hchosen : chosen (childTurn left).env unmoved [] = some 1 := rfl
  obtain ⟨height, count, s, l, next, hheight, hpoll, -⟩ :=
    (scanned_of_travels hoffset rfl .start).2 (childTurn left) allows_left
  cases hchosen.symm.trans hheight
  have hj : Travels fork unmoved _ := .poll .start allows_left hchosen hpoll
  obtain ⟨height', count', s', l', next', hheight', hpoll', hnext', -, hle'⟩ :=
    (scanned_of_travels hoffset rfl hj).2 (childTurn right) (allows_right hj)
  have hj' : Travels fork unmoved _ := .poll hj (allows_right hj) hheight' hpoll'
  have hlength : (childTurn right).node.headers.length = 2 := rfl
  obtain ⟨h, hh, hscanned⟩ := (scanned_of_travels hoffset rfl hj').1 next' hnext'
    ⟨(childTurn left).env, l, 1⟩ (by simp [Journey.after]) 1 le_rfl (by omega)
  cases hh
  exact ⟨_, hj', rfl, rfl, hscanned⟩

end Attestor.Follower
