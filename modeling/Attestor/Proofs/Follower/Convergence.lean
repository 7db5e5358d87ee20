import Attestor.Proofs.Follower.Served

/-! A follower that polls again and again while the node's chain changes. Between two polls the
chain may become any other chain of the tree that is no shorter. The follower then finds out by
the last block it delivered, goes back, and replays what it had passed, possibly while it still
replays an earlier change. After each poll the last block that was delivered is on the node's
chain, just below the next height. Once that is the newest block the window is the end of the
chain, and without a change the walk gets there a batch at a time. -/

namespace Attestor.Follower

/-- A poll's surroundings: the node at that time, and everyone's answers. -/
structure Turn where
  node : Node.Memory
  env : Environment

/-- Polls once in each surroundings, and lists the results of the polls. There is nothing if a
height overflows. -/
def polls : List Turn → Session → Transcript → Option (List (Except Error ℕ) × Session × Transcript)
  | [], s, l => some ([], s, l)
  | turn :: rest, s, l =>
    match exec turn.env poll s l with
    | (some (r, s), l) => (polls rest s l).map fun p => (r :: p.1, p.2)
    | (none, _) => none

variable {T : BlockTree} {s s₁ s₂ : Session} {l l₁ l₂ : Transcript} {turn : Turn}
  {turns earlier later : List Turn} {chain : List Header} {next : UInt32}

theorem polls_cons {count : ℕ} {counts : List ℕ}
    (h : exec turn.env poll s l = (some (.ok count, s₁), l₁))
    (hrest : polls turns s₁ l₁ = some (counts.map .ok, s₂, l₂)) :
    polls (turn :: turns) s l = some ((count :: counts).map .ok, s₂, l₂) := by
  simp only [polls, h, hrest, Option.map_some, List.map_cons]

theorem polls_append {results results' : List (Except Error ℕ)}
    (h : polls earlier s l = some (results, s₁, l₁))
    (hlater : polls later s₁ l₁ = some (results', s₂, l₂)) :
    polls (earlier ++ later) s l = some (results ++ results', s₂, l₂) := by
  induction earlier generalizing s l results with
  | nil =>
    cases h
    exact hlater
  | cons turn rest ih =>
    simp only [polls] at h
    split at h
    next r s l hpoll =>
      obtain ⟨⟨results, s', l'⟩, hrest, hp⟩ := Option.map_eq_some_iff.1 h
      cases hp
      simp only [List.cons_append, polls, hpoll, ih hrest, Option.map_some]
    next => cases h

/-- The follower's bounds, which no poll changes. -/
structure Bounded (offset : ℕ) (maxBatch : UInt32) (s : Session) : Prop where
  offset_eq : s.tracker.offset = offset
  maxBatch_eq : s.follower.maxBatch = maxBatch
  offset_lt : offset < UInt32.size
  maxBatch_pos : 1 ≤ maxBatch.toNat

/-- Nodes that never fail, whose chains are of one tree and do not get shorter. -/
structure Grows (T : BlockTree) (turns : List Turn) : Prop where
  serves : ∀ turn ∈ turns, Serves turn.node turn.env
  branch : ∀ turn ∈ turns, T.Branch turn.node.headers
  grows : turns.IsChain fun turn turn' => turn.node.headers.length ≤ turn'.node.headers.length

variable {offset : ℕ} {maxBatch : UInt32}

theorem Grows.tail (hg : Grows T (turn :: turns)) : Grows T turns :=
  ⟨fun t ht => hg.serves t (List.mem_cons_of_mem _ ht),
    fun t ht => hg.branch t (List.mem_cons_of_mem _ ht), hg.grows.tail⟩

theorem Grows.append (hg : Grows T (earlier ++ later)) : Grows T earlier ∧ Grows T later := by
  obtain ⟨hearlier, hlater, -⟩ := List.isChain_append.1 hg.grows
  exact ⟨⟨fun t ht => hg.serves t (List.mem_append_left _ ht),
      fun t ht => hg.branch t (List.mem_append_left _ ht), hearlier⟩,
    ⟨fun t ht => hg.serves t (List.mem_append_right _ ht),
      fun t ht => hg.branch t (List.mem_append_right _ ht), hlater⟩⟩

/-- One poll: the follower comes to the node's chain, a batch further if it was there. -/
theorem Bounded.exec_poll (hb : Bounded offset maxBatch s) (hserves : Serves turn.node turn.env)
    (hc : T.Branch turn.node.headers) (hs : Ready T turn.node.headers.length s) (l : Transcript) :
    ∃ count s₁ l₁ next, exec turn.env poll s l = (some (.ok count, s₁), l₁) ∧
      Bounded offset maxBatch s₁ ∧ Following T turn.node.headers s₁ next ∧
      min turn.node.headers.length maxBatch.toNat ≤ next.toNat ∧
      ∀ n, Following T turn.node.headers s n →
        min turn.node.headers.length (n.toNat + maxBatch.toNat) ≤ next.toNat := by
  obtain ⟨count, s₁, l₁, next, hpoll, hoffset, hmax, hfollowing, hfirst, hnext⟩ :=
    Follower.exec_poll hserves hc (hb.offset_eq ▸ hb.offset_lt) (hb.maxBatch_eq ▸ hb.maxBatch_pos)
      hs l
  rw [hb.maxBatch_eq] at hfirst hnext
  exact ⟨count, s₁, l₁, next, hpoll, ⟨hoffset.trans hb.offset_eq, hmax.trans hb.maxBatch_eq,
    hb.offset_lt, hb.maxBatch_pos⟩, hfollowing, hfirst, hnext⟩

/-- After a poll the follower is ready for the next one. -/
theorem Following.ready (hc : T.Branch chain) {length : ℕ} (hlen : chain.length ≤ length)
    (h : Following T chain s next) : Ready T length s :=
  .walking hc hlen h.next_eq h.inTree h.delivered

/-- No poll panics or fails, and the last one leaves the follower on its node's chain. -/
theorem exists_polls (hg : Grows T turns) (hb : Bounded offset maxBatch s)
    (hs : ∀ turn ∈ turns.head?, Ready T turn.node.headers.length s) (l : Transcript) :
    ∃ (counts : List ℕ) (s₁ : Session) (l₁ : Transcript),
      polls turns s l = some (counts.map .ok, s₁, l₁) ∧
      Bounded offset maxBatch s₁ ∧ (turns = [] → s₁ = s) ∧
      ∀ turn ∈ turns.getLast?, ∃ next, Following T turn.node.headers s₁ next := by
  induction turns generalizing s l with
  | nil => exact ⟨[], s, l, rfl, hb, fun _ => rfl, by simp⟩
  | cons turn rest ih =>
    have hc := hg.branch turn List.mem_cons_self
    obtain ⟨count, s₁, l₁, next, hpoll, hb₁, hfollowing, -, -⟩ :=
      hb.exec_poll (hg.serves turn List.mem_cons_self) hc (hs turn rfl) l
    have hready : ∀ turn' ∈ rest.head?, Ready T turn'.node.headers.length s₁ :=
      fun turn' hturn' => hfollowing.ready hc (List.isChain_cons.1 hg.grows |>.1 turn' hturn')
    obtain ⟨counts, s₂, l₂, hrest, hb₂, hnil, hlast⟩ := ih hg.tail hb₁ hready l₁
    refine ⟨count :: counts, s₂, l₂, polls_cons hpoll hrest, hb₂, by simp, fun t ht => ?_⟩
    cases rest with
    | nil =>
      cases ht
      exact ⟨next, hnil rfl ▸ hfollowing⟩
    | cons turn' rest =>
      rw [List.getLast?_cons_cons] at ht
      exact hlast t ht

/-- The first polls of a run leave the follower ready for the others. -/
theorem exists_polls_ready (hg : Grows T (earlier ++ later)) (hb : Bounded offset maxBatch s)
    (hs : ∀ turn ∈ (earlier ++ later).head?, Ready T turn.node.headers.length s)
    (l : Transcript) :
    ∃ (counts : List ℕ) (s₁ : Session) (l₁ : Transcript),
      polls earlier s l = some (counts.map .ok, s₁, l₁) ∧ Bounded offset maxBatch s₁ ∧
      ∀ turn ∈ later.head?, Ready T turn.node.headers.length s₁ := by
  have hs' : ∀ turn ∈ earlier.head?, Ready T turn.node.headers.length s := fun turn hturn =>
    hs turn (by rw [List.head?_append, hturn]; rfl)
  obtain ⟨counts, s₁, l₁, hpolls, hb₁, hnil, hlast⟩ := exists_polls hg.append.1 hb hs' l
  refine ⟨counts, s₁, l₁, hpolls, hb₁, fun turn hturn => ?_⟩
  cases h : earlier.getLast? with
  | none =>
    have hempty := List.getLast?_eq_none_iff.1 h
    subst hempty
    rw [hnil rfl]
    exact hs turn hturn
  | some turn' =>
    obtain ⟨next, hf⟩ := hlast turn' h
    exact hf.ready (hg.append.1.branch turn' (List.mem_of_getLast? h))
      ((List.isChain_append.1 hg.grows).2.2 turn' h turn hturn)

/-- While the chain stays as it is every poll takes a whole batch, until the chain ends. -/
theorem exists_polls_of_same (hg : Grows T turns) (hb : Bounded offset maxBatch s)
    (hsame : ∀ turn ∈ turns, turn.node.headers = chain) (hf : Following T chain s next)
    (l : Transcript) :
    ∃ (counts : List ℕ) (s₁ : Session) (l₁ : Transcript) (next' : UInt32),
      polls turns s l = some (counts.map .ok, s₁, l₁) ∧
      Following T chain s₁ next' ∧
      min chain.length (next.toNat + turns.length * maxBatch.toNat) ≤ next'.toNat := by
  induction turns generalizing s next l with
  | nil => exact ⟨[], s, l, next, rfl, hf, by simp⟩
  | cons turn rest ih =>
    have hchain := hsame turn List.mem_cons_self
    have hc := hg.branch turn List.mem_cons_self
    rw [← hchain] at hf
    obtain ⟨count, s₁, l₁, next₁, hpoll, hb₁, hf₁, -, hnext⟩ :=
      hb.exec_poll (hg.serves turn List.mem_cons_self) hc (hf.ready hc le_rfl) l
    have hle := hnext next hf
    rw [hchain] at hf₁ hle
    obtain ⟨counts, s₂, l₂, next₂, hrest, hf₂, hle₂⟩ := ih hg.tail hb₁
      (fun t ht => hsame t (List.mem_cons_of_mem _ ht)) hf₁ l₁
    refine ⟨count :: counts, s₂, l₂, next₂, polls_cons hpoll hrest, hf₂, ?_⟩
    have hlength : (turn :: rest).length * maxBatch.toNat =
        rest.length * maxBatch.toNat + maxBatch.toNat := by
      rw [List.length_cons, Nat.add_mul, Nat.one_mul]
    omega

/-- The next height is just above the chain. -/
def Synced (chain : List Header) (s : Session) : Prop :=
  ∃ next, s.follower.next = some next ∧ next.toNat = chain.length

theorem Following.next_le (hf : Following T chain s next) : next.toNat ≤ chain.length := by
  obtain ⟨height, h, -, hnext, hget, -⟩ := hf.delivered
  have := (List.getElem?_eq_some_iff.1 hget).1
  omega

theorem Following.window_of_synced (hf : Following T chain s next) (hs : Synced chain s) :
    s.tracker.window = .newest s.tracker.offset chain := by
  obtain ⟨n, hn, hlength⟩ := hs
  rw [hf.next_eq] at hn
  cases hn
  obtain ⟨height, h, -, hnext, -, hwindow⟩ := hf.delivered
  exact hwindow (by omega)

/-- Polls of a chain that stays as it is end just above it, given one for each batch. -/
theorem exists_polls_synced (hg : Grows T turns) (hb : Bounded offset maxBatch s)
    (hs : ∀ turn ∈ turns.head?, Ready T turn.node.headers.length s)
    (hsame : ∀ turn ∈ turns, turn.node.headers = chain) (hpos : 0 < chain.length)
    (hlength : chain.length ⌈/⌉ maxBatch.toNat ≤ turns.length) (l : Transcript) :
    ∃ (counts : List ℕ) (s₁ : Session) (l₁ : Transcript),
      polls turns s l = some (counts.map .ok, s₁, l₁) ∧ Synced chain s₁ := by
  rw [ceilDiv_le_iff_le_mul hb.maxBatch_pos] at hlength
  cases turns with
  | nil =>
    rw [List.length_nil, Nat.mul_zero] at hlength
    omega
  | cons turn rest =>
    have hchain := hsame turn List.mem_cons_self
    have hc := hg.branch turn List.mem_cons_self
    obtain ⟨count, s₁, l₁, next, hpoll, hb₁, hf, hfirst, -⟩ :=
      hb.exec_poll (hg.serves turn List.mem_cons_self) hc (hs turn rfl) l
    rw [hchain] at hf hfirst
    obtain ⟨counts, s₂, l₂, next₂, hrest, hf₂, hle⟩ := exists_polls_of_same hg.tail hb₁
      (fun t ht => hsame t (List.mem_cons_of_mem _ ht)) hf l₁
    have hnext := hf₂.next_le
    rw [List.length_cons, Nat.mul_comm, Nat.add_mul, Nat.one_mul] at hlength
    exact ⟨count :: counts, s₂, l₂, polls_cons hpoll hrest, next₂, hf₂.next_eq, by omega⟩

/-- A tracker whose window is the end of a chain signs against the chain's block that `offset - 1`
others follow. -/
theorem signingBlock_of_newest {t : Tracker} (hc : T.Branch chain)
    (hw : t.window = .newest t.offset chain) :
    (∀ h, t.offset ≤ chain.length → chain[chain.length - t.offset]? = some h →
      t.signingBlock = .ok (h.id, .ofNat (chain.length - t.offset))) ∧
    (chain.length < t.offset →
      t.signingBlock = .error (.insufficientHeaders chain.length t.offset)) := by
  have hpos := t.offset_pos
  have hsize := Window.size_newest t.offset chain
  have hheight := Window.height_newest hc t.offset
  rw [← hw] at hsize hheight
  constructor
  · intro h hle hh
    have hget : t.window.hashes[t.window.size - t.offset]? = some h.id := by
      rw [hsize, hw, Window.newest, List.getElem?_map, List.getElem?_drop,
        show min t.offset chain.length - t.offset = 0 by omega, Nat.add_zero, hh, Option.map_some]
    rw [Tracker.signingBlock, if_neg (by omega), hget]
    simp only [Except.ok.injEq, Prod.mk.injEq, true_and]
    congr 1
    omega
  · intro hlt
    rw [Tracker.signingBlock, if_pos (by omega), hsize, Nat.min_eq_right hlt.le]

/-- A follower that starts with an empty tracker, or with the full window of an earlier chain,
never panics or fails. Whenever it has come to the end of the node's chain the window is the end
of that chain, and it comes there within a poll for each batch of an unchanged chain. -/
theorem polls_converge {tracker : Tracker} {start : Option UInt32}
    (hoffset : tracker.offset < UInt32.size) (hbatch : 1 ≤ maxBatch.toNat) (hg : Grows T turns)
    (hstart : ∀ turn ∈ turns.head?, (∀ n ∈ start, n.toNat < turn.node.headers.length) ∧
      (tracker.window = .empty ∨ ∃ chain, T.Branch chain ∧ tracker.offset ≤ chain.length ∧
        chain.length ≤ turn.node.headers.length ∧
        tracker.window = .newest tracker.offset chain)) :
    ∃ (counts : List ℕ) (s : Session) (l : Transcript),
      polls turns ⟨.new maxBatch start, tracker⟩ [] = some (counts.map .ok, s, l) ∧
      ∀ turn ∈ turns.getLast?,
        (Synced turn.node.headers s →
          s.tracker.window = .newest tracker.offset turn.node.headers ∧
          (∀ h, tracker.offset ≤ turn.node.headers.length →
            turn.node.headers[turn.node.headers.length - tracker.offset]? = some h →
            s.tracker.signingBlock =
              .ok (h.id, .ofNat (turn.node.headers.length - tracker.offset))) ∧
          (turn.node.headers.length < tracker.offset → s.tracker.signingBlock =
            .error (.insufficientHeaders turn.node.headers.length tracker.offset))) ∧
        ∀ earlier later, turns = earlier ++ later →
          (∀ t ∈ later, t.node.headers = turn.node.headers) →
          turn.node.headers.length ⌈/⌉ maxBatch.toNat ≤ later.length →
          Synced turn.node.headers s := by
  have hmax : max maxBatch 1 = maxBatch := by
    change (if maxBatch ≤ 1 then 1 else maxBatch) = maxBatch
    split
    next h => exact UInt32.toNat_inj.1 (le_antisymm hbatch (UInt32.le_iff_toNat_le.1 h))
    next => rfl
  have hb : Bounded tracker.offset maxBatch ⟨.new maxBatch start, tracker⟩ :=
    ⟨rfl, hmax, hoffset, hbatch⟩
  have hs : ∀ turn ∈ turns.head?,
      Ready T turn.node.headers.length ⟨.new maxBatch start, tracker⟩ := fun turn hturn => by
    obtain ⟨hheight, hwindow | ⟨chain, hchain, -, hlen, hwindow⟩⟩ := hstart turn hturn
    · exact .empty rfl rfl hheight hwindow
    · exact .loaded rfl hchain hlen hwindow
  obtain ⟨counts, s, l, hpolls, hb₁, -, hlast⟩ := exists_polls hg hb hs []
  refine ⟨counts, s, l, hpolls, fun turn hturn => ⟨fun hsynced => ?_,
    fun earlier later hsplit hsame hlength => ?_⟩⟩
  · obtain ⟨next, hf⟩ := hlast turn hturn
    have hw := hf.window_of_synced hsynced
    have hsigning := signingBlock_of_newest (hg.branch turn (List.mem_of_getLast? hturn)) hw
    rw [hb₁.offset_eq] at hw hsigning
    exact ⟨hw, hsigning⟩
  · subst hsplit
    obtain ⟨counts₁, s₁, l₁, hearlier, hb₁, hready⟩ := exists_polls_ready hg hb hs []
    obtain ⟨counts₂, s₂, l₂, hlater, hsynced⟩ := exists_polls_synced hg.append.2 hb₁ hready hsame
      (hg.branch turn (List.mem_of_getLast? hturn)).length_pos hlength l₁
    rw [polls_append hearlier hlater] at hpolls
    simp only [Option.some.injEq, Prod.mk.injEq] at hpolls
    obtain ⟨-, rfl, -⟩ := hpolls
    exact hsynced

/-! ### A newest block that is replaced -/

open BlockTree (genesis left right fork branch_fork)

/-- A poll of a node with a child of the first block, while no transaction is looked at. -/
def childTurn (child : Header) : Turn where
  node := .forked child
  env _
    | .canceled => false
    | .node q => (Node.Memory.forked child).answer q
    | .observe _ => .ok 0

theorem grows_childTurns {children : List Header}
    (h : ∀ child ∈ children, child = left ∨ child = right) :
    Grows fork (children.map childTurn) where
  serves := List.forall_mem_map.2 fun _ _ => ⟨rfl, fun _ => rfl, fun _ _ => rfl⟩
  branch := List.forall_mem_map.2 fun child hchild => branch_fork (h child hchild)
  grows := (List.pairwise_map.2 (List.pairwise_of_forall fun _ _ => le_rfl)).isChain

/-- The follower comes to the end of the chain, and again when its newest block is replaced. -/
theorem polls_converge_after_fork :
    (∃ (counts : List ℕ) (s : Session) (l : Transcript),
      polls [childTurn left, childTurn left] ⟨.new 1 none, Tracker.new 2⟩ [] =
        some (counts.map .ok, s, l) ∧
      s.tracker.window = .newest 2 [genesis, left] ∧
      s.tracker.signingBlock = .ok (genesis.id, 0)) ∧
    ∃ (counts : List ℕ) (s : Session) (l : Transcript),
      polls [childTurn left, childTurn left, childTurn right, childTurn right]
        ⟨.new 1 none, Tracker.new 2⟩ [] = some (counts.map .ok, s, l) ∧
      s.tracker.window = .newest 2 [genesis, right] ∧
      s.tracker.signingBlock = .ok (genesis.id, 0) := by
  have hoffset : (Tracker.new 2).offset < UInt32.size := by decide
  have hbatch : 1 ≤ UInt32.toNat 1 := by decide
  have hstart : ∀ n ∈ (none : Option UInt32), ∀ length : ℕ, n.toNat < length := by simp
  have hend : ∀ (earlier : List Header) (child : Header),
      (∀ c ∈ earlier ++ [child, child], c = left ∨ c = right) →
      ∃ (counts : List ℕ) (s : Session) (l : Transcript),
        polls ((earlier ++ [child, child]).map childTurn) ⟨.new 1 none, Tracker.new 2⟩ [] =
          some (counts.map .ok, s, l) ∧
        s.tracker.window = .newest 2 [genesis, child] ∧
        s.tracker.signingBlock = .ok (genesis.id, 0) := by
    intro earlier child hchildren
    obtain ⟨counts, s, l, hpolls, hlast⟩ := polls_converge hoffset hbatch
      (grows_childTurns hchildren) fun turn _ => ⟨fun n hn => hstart n hn _, .inl rfl⟩
    obtain ⟨hsynced, hreached⟩ := hlast (childTurn child) (by simp)
    -- two polls of one block each come to the end of two blocks
    obtain ⟨hwindow, hsigning, -⟩ := hsynced (hreached (earlier.map childTurn)
      [childTurn child, childTurn child] (by simp) (by simp) (show 2 ⌈/⌉ 1 ≤ 2 by decide))
    exact ⟨counts, s, l, hpolls, hwindow, hsigning genesis le_rfl rfl⟩
  exact ⟨hend [] left (by simp), hend [left, left] right (by simp)⟩

end Attestor.Follower
