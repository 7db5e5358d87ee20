import Attestor.Proofs.Follower.Growing

/-! Which blocks are scanned when polls fail. Once a height has been recorded the walk goes on from
there, however many polls fail, and everything between is scanned. Before that each poll chooses
anew where to go on, and by then a failed poll may have moved the tracker past blocks that it had
not handed on. So nothing is skipped if the first poll that chose a height also recorded one, and
otherwise just what lies between the height that was chosen first and the one that was gone on
from when the first height was recorded can be missing. -/

namespace Attestor.Follower

/-- The height that a poll chooses, if it comes that far. -/
def chosen (env : Environment) (s : Session) (l : Transcript) : Option UInt32 :=
  match exec env choose s l with
  | (some (.ok p, _), _) => some p.2
  | _ => none

/-- A follower that has polled for a while, and how it started. -/
structure History where
  session : Session
  transcript : Transcript
  /-- The height that was chosen first. -/
  first : Option UInt32
  /-- The height from which the first poll went on that recorded one. -/
  base : Option UInt32
  /-- A poll failed after it had chosen a height, and none had been recorded before. -/
  lapsed : Bool

namespace History

/-- A follower that has not polled yet. -/
def new (s : Session) : History := ⟨s, [], none, none, false⟩

/-- The history with one more poll. -/
def after (env : Environment) (h : History) (s : Session) (l : Transcript) : History :=
  let height := chosen env h.session h.transcript
  ⟨s, l, h.first.or height, h.base.or (s.follower.next.bind fun _ => height),
    h.lapsed || (s.follower.next.isNone && height.isSome)⟩

end History

/-- The histories of a follower that polls again and again, whether polls fail or not. -/
inductive Reached (env : Environment) (s₀ : Session) : History → Prop
  | start : Reached env s₀ (.new s₀)
  | poll {h : History} {r : Except Error ℕ} {s : Session} {l : Transcript} (hh : Reached env s₀ h)
      (hp : exec env poll h.session h.transcript = (some (r, s), l)) :
      Reached env s₀ (h.after env s l)

/-- Every block of the node's chain from the height that was chosen first up to the recorded one
has been scanned. -/
def NothingSkipped (node : Transcript → Node.Memory) (env : Environment) (h : History) : Prop :=
  ∀ first next i d, h.first = some first → h.session.follower.next = some next →
    first.toNat ≤ i → i < next.toNat →
    ((node h.transcript).headers.map Header.id)[i]? = some d → Scanned env h.transcript d

variable {T : BlockTree} {node : Transcript → Node.Memory} {env : Environment} {h : History}

/-- What is known after any number of polls. -/
structure Kept (T : BlockTree) (node : Transcript → Node.Memory) (env : Environment)
    (h : History) : Prop where
  onChain : OnChain T (node h.transcript).headers h.session
  recorded : ∀ next, h.session.follower.next = some next → ∃ first base, h.first = some first ∧
    h.base = some base ∧ base.toNat ≤ next.toNat ∧
    Covered node env h.transcript base.toNat next.toNat ∧ (h.lapsed = false → base = first)
  unrecorded : h.session.follower.next = none →
    h.base = none ∧ (h.lapsed = false → h.first = none)

theorem kept_new {s : Session} (hnext : s.follower.next = none) (hlast : s.follower.last = none)
    (hwindow : s.tracker.window = .empty) : Kept T node env (.new s) where
  onChain := ⟨hwindow ▸ Window.inTree_empty, fun height d hd => by cases hlast.symm.trans hd⟩
  recorded next hn := by cases hnext.symm.trans hn
  unrecorded _ := ⟨rfl, fun _ => rfl⟩

/-- A poll that records nothing changes nothing, but it may have chosen a height in vain. -/
theorem Kept.failed (hg : Growing T node env) (hh : Kept T node env h) {s : Session}
    {l : Transcript} (hle : h.transcript <+: l) (hon : OnChain T (node l).headers s)
    (hnext : s.follower.next = h.session.follower.next) : Kept T node env (h.after env s l) where
  onChain := hon
  recorded next hn := by
    have hn : s.follower.next = some next := hn
    obtain ⟨first, base, hfirst, hbase, hle', hcovered, hlapsed⟩ :=
      hh.recorded next (hnext.symm.trans hn)
    refine ⟨first, base, ?_, ?_, hle', hcovered.mono hg hle, fun hnot => hlapsed ?_⟩
    · simp only [History.after, hfirst, Option.some_or]
    · simp only [History.after, hbase, Option.some_or]
    · simpa [History.after, hn] using hnot
  unrecorded hn := by
    have hn : s.follower.next = none := hn
    obtain ⟨hbase, hfirst⟩ := hh.unrecorded (hnext.symm.trans hn)
    refine ⟨?_, fun hnot => ?_⟩
    · simp only [History.after, hbase, hn, Option.none_or, Option.bind_none]
    · obtain ⟨hlapsed, hchosen⟩ : h.lapsed = false ∧ chosen env h.session h.transcript = none := by
        simpa [History.after, hn] using hnot
      simp only [History.after, hfirst hlapsed, hchosen, Option.none_or]

theorem Kept.ended (hg : Growing T node env) (hh : Kept T node env h) {s : Session}
    {l : Transcript} {height following : UInt32} (hle : h.transcript <+: l)
    (hon : OnChain T (node l).headers s) (hchosen : chosen env h.session h.transcript = some height)
    (hkept : ∀ next, h.session.follower.next = some next → height = next)
    (hnext : s.follower.next = some following) (hfollowing : height.toNat ≤ following.toNat)
    (hcovered : Covered node env l height.toNat following.toNat) :
    Kept T node env (h.after env s l) where
  onChain := hon
  recorded next hn := by
    cases hnext.symm.trans hn
    cases hsome : h.session.follower.next with
    | some next =>
      cases hkept next hsome
      obtain ⟨first, base, hfirst, hbase, hle', hcovered', hlapsed⟩ := hh.recorded height hsome
      refine ⟨first, base, ?_, ?_, hle'.trans hfollowing, (hcovered'.mono hg hle).trans hcovered,
        fun hnot => hlapsed ?_⟩
      · simp only [History.after, hfirst, Option.some_or]
      · simp only [History.after, hbase, Option.some_or]
      · simpa [History.after, hnext] using hnot
    | none =>
      obtain ⟨hbase, hfirst⟩ := hh.unrecorded hsome
      have hbase' : (h.after env s l).base = some height := by
        simp only [History.after, hbase, hnext, hchosen, Option.none_or, Option.bind_some]
      cases hf : h.first with
      | some first =>
        refine ⟨first, height, ?_, hbase', hfollowing, hcovered, fun hnot => ?_⟩
        · simp only [History.after, hf, Option.some_or]
        · have hlapsed : h.lapsed = false := by simpa [History.after, hnext] using hnot
          cases hf.symm.trans (hfirst hlapsed)
      | none =>
        refine ⟨height, height, ?_, hbase', hfollowing, hcovered, fun _ => rfl⟩
        simp only [History.after, hf, hchosen, Option.none_or]
  unrecorded hn := by cases hnext.symm.trans hn

theorem Kept.poll (hg : Growing T node env) (hh : Kept T node env h) {r : Except Error ℕ}
    {s : Session} {l : Transcript}
    (hp : exec env poll h.session h.transcript = (some (r, s), l)) :
    Kept T node env (h.after env s l) := by
  have hle := exec_isPrefix hp
  rw [poll_eq] at hp
  rcases exec_bind_eq_some hp with ⟨e, hchoose, rfl⟩ | ⟨p, s₁, l₁, hchoose, hproceed⟩
  · obtain ⟨hon, hnext, -⟩ := exec_choose_eq_some hg hh.onChain hchoose
    exact hh.failed hg hle hon hnext
  · have hchosen : chosen env h.session h.transcript = some p.2 := by rw [chosen, hchoose]
    obtain ⟨hon₁, hnext₁, hkept⟩ := exec_choose_eq_some hg hh.onChain hchoose
    obtain ⟨hon, ⟨-, hnext⟩ | ⟨following, hnext, hfollowing, hcovered⟩⟩ :=
      exec_proceed_eq_some hg hon₁ hproceed
    · exact hh.failed hg hle hon (hnext.trans hnext₁)
    · exact hh.ended hg hle hon hchosen (fun next hn => hkept p next rfl hn) hnext hfollowing
        hcovered

/-- However polls fail, all is scanned from where the first poll went on that recorded a height.
So nothing is skipped just when all was scanned between the height that was chosen first and that
one, and so it is unless a poll failed after choosing a height while none was recorded. -/
theorem nothingSkipped_iff (hg : Growing T node env) {tracker : Tracker} {maxBatch : UInt32}
    {start : Option UInt32} (hwindow : tracker.window = .empty)
    (hh : Reached env ⟨.new maxBatch start, tracker⟩ h) :
    (h.lapsed = false → NothingSkipped node env h) ∧
      (NothingSkipped node env h ↔ ∀ first base i d, h.first = some first → h.base = some base →
        first.toNat ≤ i → i < base.toNat →
        ((node h.transcript).headers.map Header.id)[i]? = some d → Scanned env h.transcript d) := by
  have hkept : Kept T node env h := by
    induction hh with
    | start => exact kept_new rfl rfl hwindow
    | poll _ hp ih => exact ih.poll hg hp
  refine ⟨fun hlapsed => ?_, fun hskip => ?_, fun hgap => ?_⟩
  · intro first next i d hfirst hnext hi hi' hd
    obtain ⟨first', base, hfirst', -, -, hcovered, hbase⟩ := hkept.recorded next hnext
    cases hfirst.symm.trans hfirst'
    exact hcovered.scanned (hbase hlapsed ▸ hi) hi' hd
  · intro first base i d hfirst hbase hi hi' hd
    cases hn : h.session.follower.next with
    | none => cases hbase.symm.trans (hkept.unrecorded hn).1
    | some next =>
      obtain ⟨-, base', -, hbase', hle, -⟩ := hkept.recorded next hn
      cases hbase.symm.trans hbase'
      exact hskip first next i d hfirst hn hi (hi'.trans_le hle) hd
  · intro first next i d hfirst hnext hi hi' hd
    obtain ⟨-, base, -, hbase, -, hcovered, -⟩ := hkept.recorded next hnext
    rcases Nat.lt_or_ge i base.toNat with hlt | hge
    · exact hgap first base i d hfirst hbase hi hlt hd
    · exact hcovered.scanned hge hi' hd

/-! ### A node that fails calls -/

open BlockTree (genesis)

/-- A node with one block, which fails the calls that follow any of these numbers of questions. -/
def faltering (down : List ℕ) : Environment
  | _, .canceled => false
  | l, .node q =>
    if l.length ∈ down then q.failed Node.Memory.refusal
    else Node.Memory.reply ⟨[genesis], [], false⟩ q
  | _, .observe _ => .ok 0

variable {down : List ℕ} {l : Transcript}

theorem faltering_of_mem (hdown : l.length ∈ down) (q : Node.Question) :
    faltering down l (.node q) = q.failed Node.Memory.refusal := if_pos hdown

theorem faltering_of_not_mem (hup : l.length ∉ down) (q : Node.Question) :
    faltering down l (.node q) = Node.Memory.reply ⟨[genesis], [], false⟩ q := if_neg hup

theorem growing_faltering (down : List ℕ) :
    Growing .ofGenesis (fun _ => ⟨[genesis], [], false⟩) (faltering down) where
  reply l q := by
    by_cases hdown : l.length ∈ down
    · exact .inr ⟨Node.Memory.refusal, faltering_of_mem hdown q⟩
    · exact .inl (faltering_of_not_mem hdown q)
  grows _ _ := List.prefix_rfl
  branch _ _ := BlockTree.branch_genesis

/-- A follower and a tracker that know nothing. -/
def freshSession : Session := ⟨.new 1 none, .new 1⟩

/-- What a poll asks up to the first block that it fetches. -/
def upToBlock : Transcript :=
  [.node .tip, .node (.headers 0 0), .canceled, .node (.recent 1), .node (.block genesis.id)]

/-- The session when the tracker has its first batch. -/
def fedSession : Session := ⟨.new 1 none, ⟨1, by decide, ⟨[genesis.id], 0⟩⟩⟩

/-- The session when a poll has got the block. -/
def scannedSession : Session :=
  { fedSession with
    follower := { fedSession.follower with
      last := some (0, genesis.id), next := some 1, inSync := true } }

theorem exec_choose_fresh (hup : l.length ∉ down) : exec (faltering down) choose freshSession l =
    (some (.ok (0, 0), freshSession), l ++ [.node .tip]) := by
  have htip : faltering down l (.node .tip) = .ok 0 := faltering_of_not_mem hup _
  rw [choose, exec_bind_of_ok (exec_ask _ _ _ _), htip, exec_bind_of_ok (exec_orFail _ _ _ _)]
  rfl

theorem exec_deliver_fresh (hup : l.length + 1 ∉ down) :
    exec (faltering down) (deliver ⟨0, [genesis]⟩) freshSession l =
      (some (.ok (), fedSession), l ++ [.canceled] ++ [.node (.recent 1)]) := by
  have habsorb : freshSession.tracker.absorb ⟨0, [genesis]⟩ = .ok (freshSession.tracker, true) :=
    rfl
  have hcanceled : (faltering down).trackerAnswer .canceled l = (false, l ++ [.canceled]) := rfl
  have hrecent : (faltering down).trackerAnswer (.recent freshSession.tracker.offset)
      (l ++ [.canceled]) = (.ok ⟨0, [genesis]⟩, l ++ [.canceled] ++ [.node (.recent 1)]) :=
    Prod.ext (faltering_of_not_mem (by simpa using hup) _) rfl
  have hsettled : freshSession.tracker.settled (.ok ⟨0, [genesis]⟩) = some fedSession.tracker := rfl
  rw [exec_deliver, Tracker.run_handle, habsorb]
  simp only [hcanceled, hrecent, hsettled, Bool.false_eq_true, if_false]
  rfl

theorem exec_observe_fed (hup : l.length ∉ down) :
    exec (faltering down) (observeBlocks [genesis.id]) fedSession l =
      (some (.ok (), fedSession), l ++ [.node (.block genesis.id)]) := by
  have hreply : ∀ d, genesis.id = d →
      Node.Memory.reply ⟨[genesis], [], false⟩ (.block d) = .ok ⟨genesis, []⟩ := fun d hd => by
    have hfind : [genesis].find? (·.id = d) = some genesis :=
      List.find?_cons_of_pos (decide_eq_true hd)
    rw [Node.Memory.reply, Node.Memory.block, hfind]
    rfl
  have hblock : faltering down l (.node (.block genesis.id)) = .ok ⟨genesis, []⟩ := by
    rw [faltering_of_not_mem hup, hreply _ rfl]
  rw [observeBlocks, exec_bind_of_ok (exec_ask _ _ _ _), hblock,
    exec_bind_of_ok (exec_orFail _ _ _ _)]
  rfl

/-- A poll scans the block if no call fails any more. -/
theorem exec_poll_fresh (hup : ∀ n ∈ down, n < l.length) :
    exec (faltering down) poll freshSession l =
      (some (.ok 1, scannedSession), l ++ upToBlock) := by
  have hlater : ∀ n, l.length + n ∉ down := fun n hn => by
    have := hup _ hn
    omega
  have hheaders : faltering down (l ++ [.node .tip]) (.node (.headers 0 0)) =
      .ok ⟨0, [genesis]⟩ := faltering_of_not_mem (by simpa using hlater 1) _
  have hdeliver := exec_deliver_fresh (l := l ++ [.node .tip] ++ [.node (.headers 0 0)])
    (by simpa using hlater 3 : _ ∉ down)
  have hend : batchEnd freshSession.follower.maxBatch 0 0 = 0 := rfl
  have hids : (HeaderBatch.ids ⟨0, [genesis]⟩).getLast? = some genesis.id := rfl
  rw [poll_eq, exec_bind_of_ok (exec_choose_fresh (hlater 0)), proceed, if_neg (by decide),
    exec_bind_of_ok (exec_get _ _ _), hend, take, exec_bind_of_ok (exec_ask _ _ _ _), hheaders,
    exec_bind_of_ok (exec_orFail _ _ _ _), exec_bind_of_ok hdeliver, HeaderBatch.ids,
    List.map_singleton,
    exec_bind_of_ok (exec_observe_fed (by simpa using hlater 4)), exec_record hids]
  simp only [upToBlock, List.append_assoc, List.cons_append, List.nil_append]
  rfl

/-- After a poll that got the block. -/
def scannedHistory : History where
  session := scannedSession
  transcript := upToBlock
  first := some 0
  base := some 0
  lapsed := false

theorem reached_scannedHistory : Reached (faltering []) freshSession scannedHistory :=
  .poll .start (exec_poll_fresh (l := []) nofun)

/-- After a poll that got no headers, and one that got the block. -/
def retriedHistory : History where
  session := scannedSession
  transcript := [.node .tip, .node (.headers 0 0)] ++ upToBlock
  first := some 0
  base := some 0
  lapsed := true

theorem reached_retriedHistory : Reached (faltering [1]) freshSession retriedHistory := by
  have hfirst : exec (faltering [1]) poll freshSession [] =
      (some (.error (.node Node.Memory.refusal), freshSession),
        [.node .tip, .node (.headers 0 0)]) := rfl
  exact .poll (.poll .start hfirst)
    (exec_poll_fresh (l := [.node .tip, .node (.headers 0 0)]) (by simp))

/-- The session when the next poll has looked at the tracker. -/
def resumedSession : Session :=
  { fedSession with
    follower := { fedSession.follower with last := some (0, genesis.id) } }

theorem exec_poll_withheld : exec (faltering [4]) poll freshSession [] =
    (some (.error (.node Node.Memory.refusal), fedSession), upToBlock) := rfl

/-- The second poll goes on behind the tracker's newest block, which is on the chain. -/
theorem exec_choose_withheld : exec (faltering [4]) choose fedSession upToBlock =
    (some (.ok (0, 1), resumedSession), upToBlock ++ [.node .tip, .node (.hashAt 0)]) := by
  have htip : faltering [4] upToBlock (.node .tip) = .ok 0 := rfl
  have hresume : exec (faltering [4]) (resume 0) fedSession (upToBlock ++ [.node .tip]) =
      (some (.ok 1, resumedSession), upToBlock ++ [.node .tip]) := rfl
  have hash : faltering [4] (upToBlock ++ [.node .tip]) (.node (.hashAt 0)) = .ok genesis.id := rfl
  have hrewound : exec (faltering [4]) (rewound 0 1) resumedSession (upToBlock ++ [.node .tip]) =
      (some (.ok 1, resumedSession), upToBlock ++ [.node .tip] ++ [.node (.hashAt 0)]) := by
    rw [rewound, exec_bind_of_ok (exec_get _ _ _)]
    simp only [resumedSession]
    rw [if_neg (by decide), exec_bind_of_ok (exec_ask _ _ _ _), hash,
      exec_bind_of_ok (exec_orFail _ _ _ _), if_pos rfl]
    rfl
  have hlocate : exec (faltering [4]) (locate 0) fedSession (upToBlock ++ [.node .tip]) =
      (some (.ok 1, resumedSession), upToBlock ++ [.node .tip] ++ [.node (.hashAt 0)]) := by
    rw [locate, exec_bind_of_ok (exec_get _ _ _)]
    change exec _ (resume 0 >>= rewound 0) _ _ = _
    rw [exec_bind_of_ok hresume, hrewound]
  rw [choose, exec_bind_of_ok (exec_ask _ _ _ _), htip, exec_bind_of_ok (exec_orFail _ _ _ _),
    exec_bind_of_ok hlocate]
  rfl

/-- After the two polls the follower is behind the block that it did not get. -/
def skippedHistory : History where
  session := { resumedSession with
    follower := { resumedSession.follower with next := some 1, inSync := true } }
  transcript := upToBlock ++ [.node .tip, .node (.hashAt 0)]
  first := some 0
  base := some 1
  lapsed := true

theorem reached_skippedHistory : Reached (faltering [4]) freshSession skippedHistory := by
  have hpoll : exec (faltering [4]) poll fedSession upToBlock =
      (some (.ok 0, skippedHistory.session), skippedHistory.transcript) := by
    rw [poll_eq, exec_bind_of_ok exec_choose_withheld]
    rfl
  have hsecond : chosen (faltering [4]) fedSession upToBlock = some 1 := by
    rw [chosen, exec_choose_withheld]
  have hreached := Reached.poll (.poll .start exec_poll_withheld) hpoll
  simp only [History.after, History.new, hsecond] at hreached
  exact hreached

/-- The block was asked for once, and the call failed. -/
theorem not_scanned_skippedHistory :
    ¬ Scanned (faltering [4]) skippedHistory.transcript genesis.id := by
  rintro ⟨before, after, block, hl, hblock, -⟩
  have hget : skippedHistory.transcript[before.length]? = some (.node (.block genesis.id)) := by
    rw [hl, List.getElem?_append_right le_rfl, Nat.sub_self]
    rfl
  have hfour : before.length = 4 := by
    have hlt : before.length < 7 := (List.getElem?_eq_some_iff.1 hget).1
    generalize before.length = n at hget hlt
    interval_cases n <;> first | rfl | cases hget
  rw [faltering_of_mem (by simp [hfour])] at hblock
  cases hblock

/-- Nothing is skipped if no call fails, nor if the first poll gets no headers; but the block is
skipped if the first poll does not get it. -/
theorem nothingSkipped_under_failures :
    (NothingSkipped (fun _ => ⟨[genesis], [], false⟩) (faltering []) scannedHistory ∧
      Scanned (faltering []) scannedHistory.transcript genesis.id) ∧
    (NothingSkipped (fun _ => ⟨[genesis], [], false⟩) (faltering [1]) retriedHistory ∧
      Scanned (faltering [1]) retriedHistory.transcript genesis.id) ∧
    ¬ NothingSkipped (fun _ => ⟨[genesis], [], false⟩) (faltering [4]) skippedHistory := by
  have hscanned := (nothingSkipped_iff (growing_faltering []) rfl reached_scannedHistory).1 rfl
  have hretried := (nothingSkipped_iff (growing_faltering [1]) rfl reached_retriedHistory).2.2
    fun first base i d hfirst hbase hi hi' _ => by
      -- both polls chose the same height
      cases hfirst
      cases hbase
      omega
  have hskipped := (nothingSkipped_iff (growing_faltering [4]) rfl reached_skippedHistory).2.1
  exact ⟨⟨hscanned, hscanned 0 1 0 genesis.id rfl rfl le_rfl (by decide) rfl⟩,
    ⟨hretried, hretried 0 1 0 genesis.id rfl rfl le_rfl (by decide) rfl⟩,
    fun hskip => not_scanned_skippedHistory
      (hskipped hskip 0 1 0 genesis.id rfl rfl le_rfl (by decide) rfl)⟩

/-- A failure in the first poll can make the follower skip a block for good. -/
theorem not_forall_nothingSkipped : ¬ ∀ (T : BlockTree) (node : Transcript → Node.Memory)
    (env : Environment) (tracker : Tracker) (maxBatch : UInt32) (start : Option UInt32)
    (h : History), Growing T node env → tracker.window = .empty →
    Reached env ⟨.new maxBatch start, tracker⟩ h → NothingSkipped node env h := by
  intro hall
  exact not_scanned_skippedHistory (hall _ _ _ (.new 1) 1 none skippedHistory
    (growing_faltering [4]) rfl reached_skippedHistory 0 1 0 genesis.id rfl rfl le_rfl
    (by decide) rfl)

end Attestor.Follower
