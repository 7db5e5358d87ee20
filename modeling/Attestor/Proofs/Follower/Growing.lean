import Attestor.Proofs.Follower.Run
import Attestor.Proofs.Tracker.Tree

/-! A poll of a node whose chain only grows, while any of its calls may fail, transactions may be
refused, and the service may be shutting down. Since no block leaves the chain the walk never
goes back. A poll that fails has recorded nothing; one that ends has fetched every block of its
batch and handed on every transaction. -/

namespace Attestor.Follower

open HeaderBatch (heightAfter)

/-- The node answers each call from its chain at that time, which only grows, or fails it. -/
structure Growing (T : BlockTree) (node : Transcript → Node.Memory) (env : Environment) :
    Prop where
  reply : ∀ l q, env l (.node q) = (node l).reply q ∨ ∃ e, env l (.node q) = q.failed e
  grows : ∀ l q, (node l).headers <+: (node (l ++ [q])).headers
  branch : ∀ l, (node l).headers ≠ [] → T.Branch (node l).headers

/-- A block was fetched, and its transactions were handed on after that, in their order. -/
def Scanned (env : Environment) (l : Transcript) (d : Digest) : Prop :=
  ∃ before after block, l = before ++ .node (.block d) :: after ∧
    env before (.node (.block d)) = .ok block ∧
    (block.transactions.map Question.observe).Sublist after

variable {T : BlockTree} {node : Transcript → Node.Memory} {env : Environment}
  {s s' : Session} {l l' : Transcript} {d : Digest} {α : Type}

theorem Scanned.mono (h : Scanned env l d) (hle : l <+: l') : Scanned env l' d := by
  obtain ⟨before, after, block, rfl, hblock, hsub⟩ := h
  obtain ⟨more, rfl⟩ := hle
  exact ⟨before, after ++ more, block, by simp, hblock,
    hsub.trans (List.sublist_append_left after more)⟩

theorem Growing.isPrefix (hg : Growing T node env) (hle : l <+: l') :
    (node l).headers <+: (node l').headers := by
  obtain ⟨more, rfl⟩ := hle
  induction more using List.reverseRecOn with
  | nil => rw [List.append_nil]
  | append_singleton more q ih =>
    rw [← List.append_assoc]
    exact ih.trans (hg.grows _ q)

/-- Questions are only ever added to a transcript. -/
theorem run_isPrefix (env : Environment) (p : Dialogue Question Question.Answer α)
    (l : Transcript) : l <+: (p.run env.answer l).2 := by
  induction p generalizing l with
  | done a => exact List.prefix_rfl
  | halt => exact List.prefix_rfl
  | ask q next ih => exact (List.prefix_append l [q]).trans (ih (env l q) (l ++ [q]))

theorem exec_isPrefix {p : Poll α} {r : Option (Except Error α × Session)}
    (h : exec env p s l = (r, l')) : l <+: l' := by
  have := run_isPrefix env (p.run.run s) l
  rw [exec] at h
  rwa [h] at this

theorem exec_observeAll_eq_some {ts : List Transaction} {r : Except Error Unit}
    (h : exec env (observeAll ts) s l = (some (r, s'), l')) :
    s' = s ∧ (r = .ok () →
      ∃ after, l' = l ++ after ∧ (ts.map Question.observe).Sublist after) := by
  induction ts generalizing l with
  | nil =>
    cases h
    exact ⟨rfl, fun _ => ⟨[], by simp, .slnil⟩⟩
  | cons t rest ih =>
    -- what was asked besides may stand between one transaction and the next
    have hcons : ∀ between after, l' = l ++ [.observe t] ++ between ++ after →
        (rest.map Question.observe).Sublist after →
        ∃ after, l' = l ++ after ∧ ((t :: rest).map Question.observe).Sublist after :=
      fun between after hl' hsub => ⟨.observe t :: (between ++ after), by simpa using hl',
        (hsub.trans (List.sublist_append_right between after)).cons_cons _⟩
    rw [observeAll, exec_bind_of_ok (exec_ask env s l _)] at h
    cases ho : env l (.observe t) with
    | ok saved =>
      rw [ho] at h
      obtain ⟨hs, hrest⟩ := ih h
      refine ⟨hs, fun hr => ?_⟩
      obtain ⟨after, hl', hsub⟩ := hrest hr
      exact hcons [] after (by simpa using hl') hsub
    | error e =>
      rw [ho] at h
      simp only at h
      rw [exec_bind_of_ok (exec_ask env s _ _)] at h
      cases hc : env (l ++ [.observe t]) .canceled with
      | true =>
        rw [hc] at h
        cases h
        exact ⟨rfl, fun hr => by cases hr⟩
      | false =>
        rw [hc] at h
        obtain ⟨hs, hrest⟩ := ih h
        refine ⟨hs, fun hr => ?_⟩
        obtain ⟨after, hl', hsub⟩ := hrest hr
        exact hcons [.canceled] after (by simpa using hl') hsub

theorem exec_observeBlocks_eq_some {ids : List Digest} {r : Except Error Unit}
    (h : exec env (observeBlocks ids) s l = (some (r, s'), l')) :
    s' = s ∧ (r = .ok () → ∀ d ∈ ids, Scanned env l' d) := by
  induction ids generalizing l with
  | nil =>
    cases h
    exact ⟨rfl, fun _ d hd => absurd hd List.not_mem_nil⟩
  | cons d rest ih =>
    rw [observeBlocks, exec_bind_of_ok (exec_ask env s l _)] at h
    cases hb : env l (.node (.block d)) with
    | error e =>
      rw [hb, exec_bind, exec_orFail] at h
      cases h
      exact ⟨rfl, fun hr => by cases hr⟩
    | ok block =>
      rw [hb, exec_bind_of_ok (exec_orFail env s _ _)] at h
      rcases exec_bind_eq_some h with ⟨e, he, rfl⟩ | ⟨⟨⟩, s₁, l₁, hall, hrest⟩
      · exact ⟨(exec_observeAll_eq_some he).1, fun hr => by cases hr⟩
      · obtain ⟨rfl, hobserved⟩ := exec_observeAll_eq_some hall
        obtain ⟨after, rfl, hsub⟩ := hobserved rfl
        obtain ⟨hs, hscanned⟩ := ih hrest
        have hd : Scanned env (l ++ [.node (.block d)] ++ after) d :=
          ⟨l, after, block, by simp, hb, hsub⟩
        refine ⟨hs, fun hr => List.forall_mem_cons.2 ⟨hd.mono (exec_isPrefix hrest), hscanned hr⟩⟩

/-- The window and the last block that was delivered are on a chain. -/
structure OnChain (T : BlockTree) (chain : List Header) (s : Session) : Prop where
  window : s.tracker.window.InTree (T.within chain)
  last : ∀ height d, s.follower.last = some (height, d) →
    (chain.map Header.id)[height.toNat]? = some d

theorem getElem?_of_isPrefix {β : Type} {k k' : List β} (hle : k <+: k') {i : ℕ} {b : β}
    (hi : k[i]? = some b) : k'[i]? = some b := by
  obtain ⟨hlt, rfl⟩ := List.getElem?_eq_some_iff.1 hi
  exact List.prefix_iff_getElem?.1 hle i hlt

theorem OnChain.mono {chain chain' : List Header} (hs : OnChain T chain s)
    (hle : chain <+: chain') : OnChain T chain' s :=
  ⟨hs.window.within_mono hle.subset,
    fun height d hd => getElem?_of_isPrefix (hle.map Header.id) (hs.last height d hd)⟩

theorem exec_deliver_eq_some (hg : Growing T node env) {b : HeaderBatch} {r : Except Error Unit}
    (hw : s.tracker.window.InTree (T.within (node l).headers))
    (hb : b.headers ⊆ (node l).headers)
    (h : exec env (deliver b) s l = (some (r, s'), l')) :
    r = .ok () ∧ s'.follower = s.follower ∧
      s'.tracker.window.InTree (T.within (node l').headers) := by
  have hle := exec_isPrefix h
  rw [exec_deliver] at h
  split at h
  next t l₁ hrun =>
    cases h
    refine ⟨rfl, rfl, ?_⟩
    have hhas : ∀ g ∈ b.headers, (T.within (node l).headers).Has g ∧
        (T.within (node l).headers).height g.id < UInt32.size := fun g hmem => by
      have hc := hg.branch l (List.ne_nil_of_mem (hb hmem))
      obtain ⟨hhas, hlt⟩ := (hc.within (List.Subset.refl _)).has_of_mem (hb hmem)
      exact ⟨hhas, hlt.trans hc.length_lt⟩
    rw [Tracker.run_handle] at hrun
    split at hrun
    next => cases hrun
    next t' ha =>
      cases hrun
      exact Tracker.inTree_absorb hw hhas ha
    next t' ha =>
      have hin := (Tracker.inTree_absorb hw hhas ha).within_mono (hg.isPrefix hle).subset
      split at hrun
      next =>
        cases hrun
        exact hin
      next =>
        have hne : (node (l ++ [.canceled])).headers ≠ [] := by
          rcases Tracker.absorb_eq_ok ha with ⟨-, -, hmust⟩ | ⟨hne, -⟩
          · cases hmust
          · obtain ⟨g, hmem⟩ := List.exists_mem_of_ne_nil _ hne
            exact List.ne_nil_of_mem ((hg.grows l .canceled).subset (hb hmem))
        have hsettled : t'.settled (env (l ++ [.canceled])
            (.node (.recent s.tracker.offset))) = some t := congrArg Prod.fst hrun
        have hl' : l ++ [.canceled] ++ [.node (.recent s.tracker.offset)] = l' :=
          congrArg Prod.snd hrun
        subst hl'
        rcases hg.reply (l ++ [.canceled]) (.recent s.tracker.offset) with hr | ⟨e, hr⟩
        · have hc := (hg.branch _ hne).within (hg.grows _ (.node (.recent s.tracker.offset))).subset
          rw [hr, Node.Memory.reply, Tracker.settled_recent hc (Tracker.offset_absorb ha)]
            at hsettled
          cases hsettled
          exact Window.inTree_newest hc _
        · rw [hr] at hsettled
          cases hsettled
          exact hin
  next => cases h

/-- Choosing a height may record the tracker's newest block as the last that was delivered. -/
theorem exec_resume_eq_some {tip : UInt32} {r : Except Error UInt32} {chain : List Header}
    (hc : chain ≠ [] → T.Branch chain) (hs : OnChain T chain s)
    (h : exec env (resume tip) s l = (some (r, s'), l')) :
    OnChain T chain s' ∧ s'.follower.next = s.follower.next := by
  rw [resume, exec_bind_of_ok (exec_get env s l)] at h
  cases htip : s.tracker.window.tip? with
  | some block =>
    obtain ⟨d, height⟩ := block
    simp only [htip] at h
    rw [exec_bind_of_ok (exec_change env s l _), exec_orHalt] at h
    obtain ⟨hlast, hheight⟩ : s.tracker.window.hashes.getLast? = some d ∧
        s.tracker.window.height = height := by
      simpa [Window.tip?] using htip
    cases ha : heightAfter height 1 with
    | error e => rw [ha] at h; cases h
    | ok next =>
      rw [ha] at h
      cases h
      refine ⟨⟨hs.window, fun height' d' hd => ?_⟩, rfl⟩
      cases hd
      have hin := ((hs.window.height_last hlast).1).2
      have hne : chain ≠ [] := by
        rintro rfl
        cases hin
      rw [← hheight]
      exact hs.window.getElem?_last (hc hne) hlast
  | none =>
    simp only [htip] at h
    cases hst : s.follower.start with
    | some start =>
      simp only [hst] at h
      cases h
      exact ⟨hs, rfl⟩
    | none =>
      simp only [hst] at h
      cases ha : heightAfter tip 1 with
      | error e =>
        rw [ha, exec_bind, exec_orHalt] at h
        cases h
      | ok above =>
        rw [ha, exec_bind_of_ok (exec_orHalt env s l _)] at h
        cases h
        exact ⟨hs, rfl⟩

/-- The last block that was delivered is still there, if the node says anything about it. -/
theorem exec_rewound_eq_some (hg : Growing T node env) {tip next : UInt32}
    {r : Except Error UInt32} (hs : OnChain T (node l).headers s)
    (h : exec env (rewound tip next) s l = (some (r, s'), l')) :
    s' = s ∧ ∀ n, r = .ok n → n = next := by
  rw [rewound, exec_bind_of_ok (exec_get env s l)] at h
  cases hlast : s.follower.last with
  | none =>
    simp only [hlast] at h
    cases h
    exact ⟨rfl, fun n hn => (Except.ok.inj hn).symm⟩
  | some block =>
    obtain ⟨height, d⟩ := block
    simp only [hlast] at h
    split at h
    next =>
      cases h
      exact ⟨rfl, fun n hn => (Except.ok.inj hn).symm⟩
    next =>
      rw [exec_bind_of_ok (exec_ask env s l _)] at h
      rcases hg.reply l (.hashAt height) with hr | ⟨e, hr⟩
      · have hd := hs.last height d hlast
        rw [List.getElem?_map, Option.map_eq_some_iff] at hd
        obtain ⟨g, hget, hid⟩ := hd
        have hash : (node l).hashAt height = .ok d := by rw [Node.Memory.hashAt, hget, ← hid]
        rw [hr, Node.Memory.reply, hash, exec_bind_of_ok (exec_orFail env s _ _), if_pos rfl] at h
        cases h
        exact ⟨rfl, fun n hn => (Except.ok.inj hn).symm⟩
      · rw [hr, exec_bind, exec_orFail] at h
        cases h
        exact ⟨rfl, fun n hn => by cases hn⟩

/-- A height that is recorded is gone on from. -/
theorem exec_locate_eq_some (hg : Growing T node env) {tip : UInt32} {r : Except Error UInt32}
    (hs : OnChain T (node l).headers s) (h : exec env (locate tip) s l = (some (r, s'), l')) :
    OnChain T (node l').headers s' ∧ s'.follower.next = s.follower.next ∧
      ∀ n m, r = .ok n → s.follower.next = some m → n = m := by
  have hle := hg.isPrefix (exec_isPrefix h)
  rw [locate, exec_bind_of_ok (exec_get env s l)] at h
  cases hnext : s.follower.next with
  | some next =>
    simp only [hnext] at h
    obtain ⟨rfl, hr⟩ := exec_rewound_eq_some hg hs h
    exact ⟨hs.mono hle, hnext, fun n m hn hm => (hr n hn).trans (Option.some.inj hm)⟩
  | none =>
    simp only [hnext] at h
    rcases exec_bind_eq_some h with ⟨e, he, rfl⟩ | ⟨next, s₁, l₁, hresume, hrewound⟩
    · obtain ⟨hs', hnext'⟩ := exec_resume_eq_some (hg.branch l) hs he
      exact ⟨hs'.mono hle, hnext'.trans hnext, fun n m hn => by cases hn⟩
    · obtain ⟨hs₁, hnext₁⟩ := exec_resume_eq_some (hg.branch l) hs hresume
      have hs₁ := hs₁.mono (hg.isPrefix (exec_isPrefix hresume))
      obtain ⟨rfl, -⟩ := exec_rewound_eq_some hg hs₁ hrewound
      exact ⟨hs₁.mono (hg.isPrefix (exec_isPrefix hrewound)), hnext₁.trans hnext,
        fun n m _ hm => by cases hm⟩

theorem exec_choose_eq_some (hg : Growing T node env) {r : Except Error (UInt32 × UInt32)}
    (hs : OnChain T (node l).headers s) (h : exec env choose s l = (some (r, s'), l')) :
    OnChain T (node l').headers s' ∧ s'.follower.next = s.follower.next ∧
      ∀ p m, r = .ok p → s.follower.next = some m → p.2 = m := by
  have hasked := hs.mono (hg.grows l (.node .tip))
  rw [choose, exec_bind_of_ok (exec_ask env s l _)] at h
  cases ht : env l (.node .tip) with
  | error e =>
    rw [ht, exec_bind, exec_orFail] at h
    cases h
    exact ⟨hasked, rfl, fun p m hp => by cases hp⟩
  | ok tip =>
    rw [ht, exec_bind_of_ok (exec_orFail env s _ _)] at h
    rcases exec_bind_eq_some h with ⟨e, he, rfl⟩ | ⟨next, s₁, l₁, hlocate, hpure⟩
    · obtain ⟨hs', hnext, -⟩ := exec_locate_eq_some hg hasked he
      exact ⟨hs', hnext, fun p m hp => by cases hp⟩
    · cases hpure
      obtain ⟨hs', hnext, hr⟩ := exec_locate_eq_some hg hasked hlocate
      exact ⟨hs', hnext, fun p m hp hm => by cases hp; exact hr next m rfl hm⟩

/-- The blocks of the chain from one height up to another were fetched, and all their transactions
handed on. -/
def Covered (node : Transcript → Node.Memory) (env : Environment) (l : Transcript)
    (first next : ℕ) : Prop :=
  ∀ i, first ≤ i → i < next →
    ∃ d, ((node l).headers.map Header.id)[i]? = some d ∧ Scanned env l d

theorem Covered.mono {first next : ℕ} (hg : Growing T node env)
    (h : Covered node env l first next) (hle : l <+: l') : Covered node env l' first next := by
  intro i hi hi'
  obtain ⟨d, hd, hscanned⟩ := h i hi hi'
  exact ⟨d, getElem?_of_isPrefix ((hg.isPrefix hle).map Header.id) hd, hscanned.mono hle⟩

theorem Covered.trans {first next last : ℕ} (h : Covered node env l first next)
    (h' : Covered node env l next last) : Covered node env l first last := fun i hi hi' =>
  if hlt : i < next then h i hi hlt else h' i (Nat.le_of_not_lt hlt) hi'

theorem Covered.scanned {first next i : ℕ} (h : Covered node env l first next) (hi : first ≤ i)
    (hi' : i < next) (hd : ((node l).headers.map Header.id)[i]? = some d) : Scanned env l d := by
  obtain ⟨d', hd', hscanned⟩ := h i hi hi'
  cases hd.symm.trans hd'
  exact hscanned

/-- A part of the chain has been covered when its blocks have been scanned. -/
theorem covered_of_part {first last : ℕ} {part : List Header}
    (hle : (node l).headers <+: (node l').headers) (hlength : part.length = last + 1 - first)
    (hget : ∀ i, first ≤ i → i ≤ last → part[i - first]? = (node l).headers[i]?)
    (hscanned : ∀ g ∈ part, Scanned env l' g.id) : Covered node env l' first (last + 1) := by
  intro i hi hi'
  obtain ⟨g, hg⟩ : ∃ g, part[i - first]? = some g := ⟨_, List.getElem?_eq_getElem (by omega)⟩
  have hchain := getElem?_of_isPrefix hle ((hget i hi (by omega)).symm.trans hg)
  refine ⟨g.id, ?_, hscanned g (List.mem_of_getElem? hg)⟩
  rw [List.getElem?_map, hchain, Option.map_some]

/-- A batch is recorded when all of it was covered. -/
theorem exec_take_eq_some (hg : Growing T node env) {tip next last : UInt32}
    {r : Except Error ℕ} (hs : OnChain T (node l).headers s) (hle : next.toNat ≤ last.toNat)
    (h : exec env (take tip next last) s l = (some (r, s'), l')) :
    OnChain T (node l').headers s' ∧
      ((∃ e, r = .error e) ∧ s'.follower.next = s.follower.next ∨
        ∃ following, s'.follower.next = some following ∧ next.toNat ≤ following.toNat ∧
          Covered node env l' next.toNat following.toNat) := by
  have hasked := hs.mono (hg.grows l (.node (.headers next last)))
  rw [take, exec_bind_of_ok (exec_ask env s l _)] at h
  rcases hg.reply l (.headers next last) with hr | ⟨e, hr⟩
  · rw [hr, Node.Memory.reply] at h
    cases hrange : (node l).range next last with
    | error e =>
      rw [hrange, exec_bind, exec_orFail] at h
      cases h
      exact ⟨hasked, .inl ⟨⟨_, rfl⟩, rfl⟩⟩
    | ok b =>
      have hlast := Node.Memory.lt_length_of_range hrange
      obtain ⟨part, hpart, hinfix, hlength, hget⟩ := Node.Memory.range_eq_ok hle hlast
      rw [hrange] at hpart
      cases hpart
      rw [hrange, exec_bind_of_ok (exec_orFail env s _ _)] at h
      have hgrown := hg.grows l (.node (.headers next last))
      have hsub := List.Subset.trans hinfix.subset hgrown.subset
      rcases exec_bind_eq_some h with ⟨e, he, rfl⟩ | ⟨⟨⟩, s₁, l₁, hdeliver, hrest⟩
      · cases (exec_deliver_eq_some hg hasked.window hsub he).1
      obtain ⟨-, hfollower, hin⟩ := exec_deliver_eq_some hg hasked.window hsub hdeliver
      have hs₁ : OnChain T (node l₁).headers s₁ := ⟨hin, fun height d hd =>
        (hasked.mono (hg.isPrefix (exec_isPrefix hdeliver))).last height d (hfollower ▸ hd)⟩
      rcases exec_bind_eq_some hrest with ⟨e, he, rfl⟩ | ⟨⟨⟩, s₂, l₂, hobserve, hrecord⟩
      · obtain ⟨rfl, -⟩ := exec_observeBlocks_eq_some he
        exact ⟨hs₁.mono (hg.isPrefix (exec_isPrefix he)), .inl ⟨⟨e, rfl⟩, by rw [hfollower]⟩⟩
      obtain ⟨rfl, hscanned⟩ := exec_observeBlocks_eq_some hobserve
      have hgrown₂ : (node l).headers <+: (node l₂).headers := hgrown.trans
        (hg.isPrefix ((exec_isPrefix hdeliver).trans (exec_isPrefix hobserve)))
      have hcovered := covered_of_part hgrown₂ hlength hget
        fun g hmem => hscanned rfl g.id (List.mem_map_of_mem hmem)
      obtain ⟨g, hnewest⟩ : ∃ g, (node l).headers[last.toNat]? = some g :=
        ⟨_, List.getElem?_eq_getElem hlast⟩
      have hids : (HeaderBatch.ids ⟨next, part⟩).getLast? = some g.id := by
        rw [HeaderBatch.ids, List.getLast?_map, Node.Memory.getLast?_of_range hle hlast hrange,
          hnewest, Option.map_some]
      rw [exec_record hids] at hrecord
      cases ha : heightAfter last 1 with
      | error e =>
        rw [ha] at hrecord
        cases hrecord
      | ok following =>
        have hnat := HeaderBatch.heightAfter_eq_ok.1 ha
        rw [ha] at hrecord
        rw [← hnat] at hcovered
        cases hrecord
        refine ⟨⟨hin.within_mono (hg.isPrefix (exec_isPrefix hobserve)).subset,
          fun height d hd => ?_⟩, .inr ⟨following, rfl, by omega, hcovered⟩⟩
        cases hd
        rw [List.getElem?_map, getElem?_of_isPrefix hgrown₂ hnewest, Option.map_some]
  · rw [hr, exec_bind, Node.Question.failed, exec_orFail] at h
    cases h
    exact ⟨hasked, .inl ⟨⟨_, rfl⟩, rfl⟩⟩

/-- A poll that ends has covered the chain from where it went on up to what it recorded. -/
theorem exec_proceed_eq_some (hg : Growing T node env) {tip next : UInt32} {r : Except Error ℕ}
    (hs : OnChain T (node l).headers s)
    (h : exec env (proceed tip next) s l = (some (r, s'), l')) :
    OnChain T (node l').headers s' ∧
      ((∃ e, r = .error e) ∧ s'.follower.next = s.follower.next ∨
        ∃ following, s'.follower.next = some following ∧ next.toNat ≤ following.toNat ∧
          Covered node env l' next.toNat following.toNat) := by
  by_cases hcaught : tip < next
  · rw [proceed, if_pos hcaught, exec_bind_of_ok (exec_change env s l _)] at h
    cases h
    exact ⟨⟨hs.window, hs.last⟩, .inr ⟨next, rfl, le_rfl, fun i hi hi' => by omega⟩⟩
  · rw [proceed, if_neg hcaught, exec_bind_of_ok (exec_get env s l)] at h
    have hend := toNat_batchEnd s.follower.maxBatch tip next
    rw [UInt32.lt_iff_toNat_lt] at hcaught
    exact exec_take_eq_some hg hs (by omega) h

end Attestor.Follower
