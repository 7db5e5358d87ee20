import Attestor.Proofs.Follower.Run
import Attestor.Proofs.Tracker.Tree

/-! A poll of a node that keeps its chain in memory and never fails. Every call is answered, so a
poll comes to its end; what matters is where it goes on and what it leaves in the window. A batch
that ends below the newest block may leave the window at the batch's end or, when it had to be
rebuilt, at the newest block. One that ends with the newest block leaves it there either way. -/

namespace Attestor.Follower

open HeaderBatch (heightAfter)

/-- The node answers every call from memory, and the service is not shutting down. -/
structure Serves (node : Node.Memory) (env : Environment) : Prop where
  online : node.offline = false
  canceled : ∀ l, env l .canceled = false
  node : ∀ l q, env l (.node q) = node.answer q

/-- The last block that was delivered is one of the chain, just below a height. If it is the
newest one, the window is the end of the chain. -/
def Delivered (chain : List Header) (s : Session) (next : UInt32) : Prop :=
  ∃ (height : UInt32) (h : Header), s.follower.last = some (height, h.id) ∧
    next.toNat = height.toNat + 1 ∧ chain[height.toNat]? = some h ∧
    (height.toNat + 1 = chain.length →
      s.tracker.window = .newest s.tracker.offset chain)

variable {T : BlockTree} {node : Node.Memory} {env : Environment} {s : Session}
  {chain : List Header} {tip next last : UInt32}

theorem Serves.reply (hserves : Serves node env) (l : Transcript) (q : Node.Question) :
    env l (.node q) = node.reply q := by
  rw [hserves.node, Node.Memory.answer_eq, hserves.online]
  rfl

/-- Whatever becomes of the transactions, they end no poll. -/
theorem exec_observeAll (hserves : Serves node env) (ts : List Transaction) (s : Session)
    (l : Transcript) : ∃ l', exec env (observeAll ts) s l = (some (.ok (), s), l') := by
  induction ts generalizing l with
  | nil => exact ⟨l, rfl⟩
  | cons t rest ih =>
    rw [observeAll, exec_bind_of_ok (exec_ask env s l _)]
    cases env l (.observe t) with
    | ok saved => exact ih _
    | error e =>
      simp only
      rw [exec_bind_of_ok (exec_ask env s _ _), hserves.canceled]
      exact ih _

theorem exec_observeBlocks (hserves : Serves node env) {headers : List Header}
    (hsub : headers ⊆ node.headers) (s : Session) (l : Transcript) :
    ∃ l', exec env (observeBlocks (headers.map Header.id)) s l = (some (.ok (), s), l') := by
  induction headers generalizing l with
  | nil => exact ⟨l, rfl⟩
  | cons h rest ih =>
    obtain ⟨hh, hrest⟩ := List.cons_subset.1 hsub
    obtain ⟨b, hb⟩ := Node.Memory.block_eq_ok hh
    obtain ⟨l', hl'⟩ := exec_observeAll hserves b.transactions s (l ++ [.node (.block h.id)])
    rw [List.map_cons, observeBlocks, exec_bind_of_ok (exec_ask env s l _), hserves.reply,
      Node.Memory.reply, hb, exec_bind_of_ok (exec_orFail env s _ _), exec_bind_of_ok hl']
    exact ih hrest l'

/-- A poll goes on where it would have if the last block that was delivered is still there. -/
theorem exec_rewound_of_kept (hserves : Serves node env) {height : UInt32} {h : Header}
    (hlast : s.follower.last = some (height, h.id)) (hget : node.headers[height.toNat]? = some h)
    (tip next : UInt32) (l : Transcript) :
    ∃ l', exec env (rewound tip next) s l = (some (.ok next, s), l') := by
  rw [rewound, exec_bind_of_ok (exec_get env s l)]
  simp only [hlast]
  split
  next => exact ⟨l, rfl⟩
  next =>
    have hash : node.hashAt height = .ok h.id := by rw [Node.Memory.hashAt, hget]
    rw [exec_bind_of_ok (exec_ask env s l _), hserves.reply, Node.Memory.reply, hash,
      exec_bind_of_ok (exec_orFail env s _ _), if_pos rfl]
    exact ⟨_, rfl⟩

/-- If another block has its height, the poll goes back as far as the window reaches. -/
theorem exec_rewound_of_moved (hserves : Serves node env) {height : UInt32} {d : Digest}
    {g : Header} (hlast : s.follower.last = some (height, d))
    (hget : node.headers[height.toNat]? = some g) (hmoved : g.id ≠ d)
    (htip : height.toNat ≤ tip.toNat) (next : UInt32) (l : Transcript) :
    ∃ n s' l', exec env (rewound tip next) s l = (some (.ok n, s'), l') ∧
      s' = { s with follower := { s.follower with inSync := false } } ∧
      n.toNat = height.toNat - (s.tracker.offset % UInt32.size - 1) := by
  have hash : node.hashAt height = .ok g.id := by rw [Node.Memory.hashAt, hget]
  have htiple : ¬ tip < height := by
    rw [UInt32.lt_iff_toNat_lt]
    omega
  have hlt := height.toNat_lt_size
  rw [rewound, exec_bind_of_ok (exec_get env s l)]
  simp only [hlast]
  rw [if_neg htiple, exec_bind_of_ok (exec_ask env s l _), hserves.reply, Node.Memory.reply,
    hash, exec_bind_of_ok (exec_orFail env s _ _), if_neg hmoved, ← hlast]
  exact ⟨_, _, _, rfl, rfl, UInt32.toNat_ofNat_of_lt' (by omega)⟩

/-- A height of the chain that is taken from the tracker or from what was delivered is gone on
from if the block is still there. -/
theorem exec_rewound_of_delivered (hserves : Serves node env)
    (hd : Delivered node.headers s next) (tip : UInt32) (l : Transcript) :
    ∃ l', exec env (rewound tip next) s l = (some (.ok next, s), l') := by
  obtain ⟨height, h, hlast, -, hget, -⟩ := hd
  exact exec_rewound_of_kept hserves hlast hget tip next l

/-- After a walk along another chain, no longer than the node's, a poll goes on at a height of the
node's chain, or has caught up with it. -/
theorem exec_rewound (hserves : Serves node env) (hc : T.Branch node.headers)
    (htip : tip.toNat + 1 = node.headers.length) (hchain : T.Branch chain)
    (hlen : chain.length ≤ node.headers.length) (hd : Delivered chain s next) (l : Transcript) :
    ∃ n s' l', exec env (rewound tip next) s l = (some (.ok n, s'), l') ∧
      s'.tracker = s.tracker ∧ s'.follower.maxBatch = s.follower.maxBatch ∧
      (n.toNat < node.headers.length ∨ Delivered node.headers s' n) := by
  have hd' := hd
  obtain ⟨height, h, hlast, hnext, hget, hnewest⟩ := hd'
  have hlt := (List.getElem?_eq_some_iff.1 hget).1
  obtain ⟨g, hg⟩ : ∃ g, node.headers[height.toNat]? = some g :=
    ⟨_, List.getElem?_eq_getElem (hlt.trans_le hlen)⟩
  by_cases hid : g.id = h.id
  · have hd : Delivered node.headers s next := by
      refine ⟨height, g, hid ▸ hlast, hnext, hg, fun htop => ?_⟩
      have heq : chain.length = node.headers.length := by omega
      rw [hnewest (by omega)]
      refine (Window.inTree_newest hchain _).eq_newest hc s.tracker.offset_pos ?_ ?_
      · rw [Window.getLast?_newest s.tracker.offset_pos hchain.ne_nil,
          List.getLast?_eq_getElem?, List.getLast?_eq_getElem?, heq, ← htop, Nat.add_sub_cancel,
          hget, hg, Option.map_some, Option.map_some, hid]
      · rw [Window.size_newest, heq]
    obtain ⟨l', hl'⟩ := exec_rewound_of_delivered hserves hd tip l
    exact ⟨next, s, l', hl', rfl, rfl, .inr hd⟩
  · have htiple : height.toNat ≤ tip.toNat := by omega
    obtain ⟨n, s', l', hrewound, rfl, hn⟩ :=
      exec_rewound_of_moved hserves hlast hg hid htiple next l
    exact ⟨n, _, l', hrewound, rfl, rfl, .inl (by omega)⟩

/-- Where a follower may stand before a poll: it has delivered nothing and the tracker is empty,
or has the end of a chain, or it has delivered blocks of a chain. -/
inductive Ready (T : BlockTree) (length : ℕ) (s : Session) : Prop
  | empty (hnext : s.follower.next = none) (hlast : s.follower.last = none)
      (hstart : ∀ n ∈ s.follower.start, n.toNat < length) (hwindow : s.tracker.window = .empty)
  | loaded {chain : List Header} (hnext : s.follower.next = none) (hchain : T.Branch chain)
      (hlen : chain.length ≤ length)
      (hwindow : s.tracker.window = .newest s.tracker.offset chain)
  | walking {chain : List Header} {next : UInt32} (hchain : T.Branch chain)
      (hlen : chain.length ≤ length) (hnext : s.follower.next = some next)
      (hwindow : s.tracker.window.InTree T) (hd : Delivered chain s next)

theorem Ready.inTree {length : ℕ} (hs : Ready T length s) : s.tracker.window.InTree T := by
  cases hs with
  | empty _ _ _ hwindow => exact hwindow ▸ Window.inTree_empty
  | loaded _ hchain _ hwindow => exact hwindow ▸ Window.inTree_newest hchain _
  | walking _ _ _ hwindow _ => exact hwindow

theorem heightAfter_one {chain : List Header} (hc : T.Branch chain) {height : UInt32}
    (hheight : height.toNat + 1 ≤ chain.length) :
    ∃ next, heightAfter height 1 = .ok next ∧ next.toNat = height.toNat + 1 := by
  have hlt := hc.length_lt
  exact ⟨.ofNat (height.toNat + 1), if_pos (by omega), UInt32.toNat_ofNat_of_lt' (by omega)⟩

theorem exec_resume_of_empty (env : Environment) (hc : T.Branch node.headers)
    (htip : tip.toNat + 1 = node.headers.length) (hoffset : s.tracker.offset < UInt32.size)
    (hstart : ∀ n ∈ s.follower.start, n.toNat < node.headers.length)
    (hwindow : s.tracker.window = .empty) (l : Transcript) :
    ∃ n, exec env (resume tip) s l = (some (.ok n, s), l) ∧ n.toNat < node.headers.length := by
  have htip? : s.tracker.window.tip? = none := by
    rw [hwindow]
    rfl
  rw [resume, exec_bind_of_ok (exec_get env s l)]
  simp only [htip?]
  cases hst : s.follower.start with
  | some n => exact ⟨n, rfl, hstart n hst⟩
  | none =>
    obtain ⟨above, habove, hnat⟩ := heightAfter_one hc htip.le
    have hpos := s.tracker.offset_pos
    have hle := Nat.mod_le (above.toNat - s.tracker.offset) (2 ^ 32)
    simp only
    rw [habove, exec_bind_of_ok (exec_orHalt env s l _), Nat.mod_eq_of_lt hoffset]
    refine ⟨_, rfl, ?_⟩
    rw [UInt32.toNat_ofNat']
    omega

/-- A loaded window is gone on from as if its newest block had been delivered. -/
theorem exec_resume_of_newest (env : Environment) (hchain : T.Branch chain)
    (hwindow : s.tracker.window = .newest s.tracker.offset chain) (tip : UInt32) (l : Transcript) :
    ∃ n s', exec env (resume tip) s l = (some (.ok n, s'), l) ∧ s'.tracker = s.tracker ∧
      s'.follower.maxBatch = s.follower.maxBatch ∧ Delivered chain s' n := by
  obtain ⟨h, hh⟩ : ∃ h, chain.getLast? = some h := ⟨_, List.getLast?_eq_some_getLast hchain.ne_nil⟩
  have hheight := Window.height_newest hchain s.tracker.offset
  obtain ⟨n, hn, hnat⟩ := heightAfter_one hchain hheight.le
  have htip? : s.tracker.window.tip? =
      some (h.id, (Window.newest s.tracker.offset chain).height) := by
    rw [hwindow, Window.tip?, Window.getLast?_newest s.tracker.offset_pos hchain.ne_nil, hh]
    rfl
  rw [resume, exec_bind_of_ok (exec_get env s l)]
  simp only [htip?]
  rw [exec_bind_of_ok (exec_change env s l _), hn]
  refine ⟨n, _, exec_orHalt env _ l _, rfl, rfl, _, h, rfl, hnat, ?_, fun _ => hwindow⟩
  rw [List.getLast?_eq_getElem?] at hh
  rw [← hh, ← hheight, Nat.add_sub_cancel]

theorem exec_locate (hserves : Serves node env) (hc : T.Branch node.headers)
    (htip : tip.toNat + 1 = node.headers.length) (hoffset : s.tracker.offset < UInt32.size)
    (hs : Ready T node.headers.length s) (l : Transcript) :
    ∃ n s' l', exec env (locate tip) s l = (some (.ok n, s'), l') ∧
      s'.tracker = s.tracker ∧ s'.follower.maxBatch = s.follower.maxBatch ∧
      (n.toNat < node.headers.length ∨ Delivered node.headers s' n) := by
  rw [locate, exec_bind_of_ok (exec_get env s l)]
  cases hs with
  | empty hnext hlast hstart hwindow =>
    obtain ⟨n, hn, hnlt⟩ := exec_resume_of_empty env hc htip hoffset hstart hwindow l
    simp only [hnext]
    rw [exec_bind_of_ok hn]
    refine ⟨n, s, l, ?_, rfl, rfl, .inl hnlt⟩
    rw [rewound, exec_bind_of_ok (exec_get env s l)]
    simp only [hlast]
    rfl
  | loaded hnext hchain hlen hwindow =>
    obtain ⟨n, s', hn, htracker, hmax, hd⟩ :=
      exec_resume_of_newest env hchain hwindow tip l
    obtain ⟨n', s'', l', hr, htracker', hmax', hplace⟩ :=
      exec_rewound hserves hc htip hchain hlen hd l
    simp only [hnext]
    rw [exec_bind_of_ok hn]
    exact ⟨n', s'', l', hr, htracker'.trans htracker, hmax'.trans hmax, hplace⟩
  | walking hchain hlen hnext hwindow hd =>
    simp only [hnext]
    exact exec_rewound hserves hc htip hchain hlen hd l

/-- What a poll leaves behind: the next height is recorded, and the window is on the tree. -/
structure Following (T : BlockTree) (chain : List Header) (s : Session) (next : UInt32) :
    Prop where
  next_eq : s.follower.next = some next
  inTree : s.tracker.window.InTree T
  delivered : Delivered chain s next

theorem exec_take (hserves : Serves node env) (hc : T.Branch node.headers)
    (hw : s.tracker.window.InTree T) (hle : next.toNat ≤ last.toNat)
    (hlast : last.toNat < node.headers.length) (tip : UInt32) (l : Transcript) :
    ∃ count s' l' following, exec env (take tip next last) s l = (some (.ok count, s'), l') ∧
      s'.tracker.offset = s.tracker.offset ∧ s'.follower.maxBatch = s.follower.maxBatch ∧
      following.toNat = last.toNat + 1 ∧ Following T node.headers s' following := by
  have hlt := hc.length_lt
  obtain ⟨part, hrange, hinfix, hlength, -⟩ := Node.Memory.range_eq_ok hle hlast
  have hend := Node.Memory.getLast?_of_range hle hlast hrange
  obtain ⟨g, hg⟩ : ∃ g, node.headers[last.toNat]? = some g := ⟨_, List.getElem?_eq_getElem hlast⟩
  have hne : part ≠ [] := List.length_pos_iff.1 (by omega)
  obtain ⟨t', l₁, hrun, hoffset, hin, hnewest⟩ := Tracker.handle_part env.trackerAnswer
    (b := ⟨next, part⟩) hserves.canceled (fun l => hserves.reply l (.recent _)) hc hw hne
    (by simp only; omega) hinfix (l ++ [.node (.headers next last)])
  let fed : Session := { s with tracker := t' }
  have hdeliver : exec env (deliver ⟨next, part⟩) s (l ++ [.node (.headers next last)]) =
      (some (.ok ⟨⟩, fed), l₁) := by rw [exec_deliver, hrun]
  obtain ⟨l₂, hobserve⟩ : ∃ l₂, exec env (observeBlocks (HeaderBatch.ids ⟨next, part⟩)) fed l₁ =
      (some (.ok (), fed), l₂) := exec_observeBlocks hserves hinfix.subset fed l₁
  obtain ⟨following, hfollowing, hnat⟩ := heightAfter_one hc (show last.toNat + 1 ≤ _ from hlast)
  have hids : (HeaderBatch.ids ⟨next, part⟩).getLast? = some g.id := by
    rw [HeaderBatch.ids, List.getLast?_map, hend, hg, Option.map_some]
  have hwindow : last.toNat + 1 = node.headers.length →
      t'.window = .newest t'.offset node.headers := fun htop => by
    rw [hoffset]
    refine hnewest ?_
    rw [hend, List.getLast?_eq_getElem?, ← htop, Nat.add_sub_cancel]
  rw [take, exec_bind_of_ok (exec_ask env s l _), hserves.reply, Node.Memory.reply, hrange,
    exec_bind_of_ok (exec_orFail env s _ _), exec_bind_of_ok hdeliver, exec_bind_of_ok hobserve,
    exec_record hids, hfollowing]
  exact ⟨_, _, _, following, rfl, hoffset, rfl, hnat, rfl, hin, last, g, rfl, hnat, hg, hwindow⟩

/-- From its height a poll takes a whole batch, unless the chain ends first. -/
theorem exec_proceed (hserves : Serves node env) (hc : T.Branch node.headers)
    (htip : tip.toNat + 1 = node.headers.length) (hw : s.tracker.window.InTree T)
    (hbatch : 1 ≤ s.follower.maxBatch.toNat)
    (hplace : next.toNat < node.headers.length ∨ Delivered node.headers s next)
    (l : Transcript) :
    ∃ count s' l' following, exec env (proceed tip next) s l = (some (.ok count, s'), l') ∧
      s'.tracker.offset = s.tracker.offset ∧ s'.follower.maxBatch = s.follower.maxBatch ∧
      Following T node.headers s' following ∧
      min node.headers.length (next.toNat + s.follower.maxBatch.toNat) ≤ following.toNat := by
  by_cases hcaught : tip < next
  · have hlt := UInt32.lt_iff_toNat_lt.1 hcaught
    rcases hplace with hplace | hplace
    · omega
    · rw [proceed, if_pos hcaught, exec_bind_of_ok (exec_change env s l _)]
      refine ⟨0, _, l, next, rfl, rfl, rfl, ⟨rfl, hw, ?_⟩, by omega⟩
      exact hplace
  · rw [UInt32.lt_iff_toNat_lt] at hcaught
    have hend := toNat_batchEnd s.follower.maxBatch tip next
    obtain ⟨count, s', l', following, htake, hoffset, hmax, hnat, hfollowing⟩ :=
      exec_take hserves hc hw
        (show next.toNat ≤ (batchEnd s.follower.maxBatch tip next).toNat by omega) (by omega) tip l
    rw [proceed, if_neg (UInt32.lt_iff_toNat_lt.not.2 hcaught),
      exec_bind_of_ok (exec_get env s l)]
    exact ⟨count, s', l', following, htake, hoffset, hmax, hfollowing, by omega⟩

theorem exec_locate_of_following (hserves : Serves node env)
    (hs : Following T node.headers s next) (tip : UInt32) (l : Transcript) :
    ∃ l', exec env (locate tip) s l = (some (.ok next, s), l') := by
  rw [locate, exec_bind_of_ok (exec_get env s l)]
  simp only [hs.next_eq]
  exact exec_rewound_of_delivered hserves hs.delivered tip l

theorem exec_choose_of_locate (hserves : Serves node env) (htip : node.tip = .ok tip)
    {n : UInt32} {s' : Session} {l l' : Transcript}
    (hlocate : exec env (locate tip) s (l ++ [.node .tip]) = (some (.ok n, s'), l')) :
    exec env choose s l = (some (.ok (tip, n), s'), l') := by
  rw [choose, exec_bind_of_ok (exec_ask env s l _), hserves.reply, Node.Memory.reply, htip,
    exec_bind_of_ok (exec_orFail env s _ _), exec_bind_of_ok hlocate]
  rfl

/-- A poll comes to its end. It goes on at some height, at the recorded one if it has walked along
the node's chain, and takes a whole batch from there unless the chain ends first. -/
theorem exec_poll (hserves : Serves node env) (hc : T.Branch node.headers)
    (hoffset : s.tracker.offset < UInt32.size) (hbatch : 1 ≤ s.follower.maxBatch.toNat)
    (hs : Ready T node.headers.length s) (l : Transcript) :
    ∃ count s' l' next, exec env poll s l = (some (.ok count, s'), l') ∧
      s'.tracker.offset = s.tracker.offset ∧ s'.follower.maxBatch = s.follower.maxBatch ∧
      Following T node.headers s' next ∧
      min node.headers.length s.follower.maxBatch.toNat ≤ next.toNat ∧
      ∀ n, Following T node.headers s n →
        min node.headers.length (n.toNat + s.follower.maxBatch.toNat) ≤ next.toNat := by
  obtain ⟨tip, htip, hlen⟩ := Node.Memory.tip_eq_ok hc
  obtain ⟨n, s₁, l₁, hlocate, htracker, hmax, hplace⟩ :=
    exec_locate hserves hc hlen hoffset hs (l ++ [.node .tip])
  have hkept : ∀ n', Following T node.headers s n' → n = n' := fun n' hn' => by
    obtain ⟨l', hl'⟩ := exec_locate_of_following hserves hn' tip (l ++ [.node .tip])
    rw [hlocate] at hl'
    cases hl'
    rfl
  obtain ⟨count, s', l', next, hproceed, hoffset', hmax', hfollowing, hnext⟩ :=
    exec_proceed hserves hc hlen (htracker ▸ hs.inTree) (hmax ▸ hbatch) hplace l₁
  rw [hmax] at hnext
  refine ⟨count, s', l', next, ?_, ?_, hmax'.trans hmax, hfollowing, by omega, fun n' hn' => ?_⟩
  · rw [poll_eq, exec_bind_of_ok (exec_choose_of_locate hserves htip hlocate)]
    exact hproceed
  · rw [hoffset', htracker]
  · rw [← hkept n' hn']
    exact hnext

end Attestor.Follower
