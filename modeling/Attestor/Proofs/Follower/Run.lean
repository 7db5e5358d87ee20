import Attestor.Follower
import Attestor.Proofs.Tracker.Handle

/-! Running a poll. Whoever answers a question may look at all the questions that came before
it, so an environment can be any node, however its chain changes and its calls fail, with any
service behind it. A poll first finds the height to go on at, and then either has caught up or
fetches a batch, hands it to the tracker, hands on its blocks and records how far it came. -/

namespace Attestor.Follower

open HeaderBatch (Overflow heightAfter)

/-- The questions that were asked, oldest first. -/
abbrev Transcript := List Question

/-- Answers every question, knowing those before it. -/
abbrev Environment := Transcript → (q : Question) → q.Answer

namespace Environment

/-- Answers a question and writes it down. -/
def answer (env : Environment) (q : Question) : StateM Transcript q.Answer :=
  fun l => (env l q, l ++ [q])

/-- The answers that the tracker gets. -/
def trackerAnswer (env : Environment) : (q : Tracker.Question) → StateM Transcript q.Answer
  | .canceled => env.answer .canceled
  | .recent count => env.answer (.node (.recent count))

end Environment

variable {α β : Type} (env : Environment)

/-- Runs a part of a poll. There is no result if a height overflows. -/
def exec (p : Poll α) (s : Session) (l : Transcript) :
    Option (Except Error α × Session) × Transcript :=
  (p.run.run s).run env.answer l

section Steps

variable (s : Session) (l : Transcript)

theorem exec_pure (a : α) : exec env (pure a) s l = (some (.ok a, s), l) := rfl

theorem exec_get : exec env get s l = (some (.ok s, s), l) := rfl

theorem exec_change (f : Follower → Follower) : exec env (change f) s l =
    (some (.ok (), { s with follower := f s.follower }), l) := rfl

theorem exec_ask (q : Question) : exec env (ask q) s l = (some (.ok (env l q), s), l ++ [q]) := rfl

theorem exec_orFail (r : Except Node.Error α) :
    exec env (orFail r) s l = (some (r.mapError Error.node, s), l) := by cases r <;> rfl

theorem exec_orHalt (r : Except Overflow α) :
    exec env (orHalt r) s l = (r.toOption.map fun a => (.ok a, s), l) := by cases r <;> rfl

theorem exec_lift (d : Dialogue Question Question.Answer α) (s : Session) (l : Transcript) :
    exec env (liftM d) s l =
      match d.run env.answer l with
      | (some a, l) => (some (.ok a, s), l)
      | (none, l) => (none, l) := by
  induction d generalizing l with
  | done a => rfl
  | halt => rfl
  | ask q next ih => exact ih _ _

theorem exec_bind (p : Poll α) (f : α → Poll β) : exec env (p >>= f) s l =
    match exec env p s l with
    | (some (.ok a, s), l) => exec env (f a) s l
    | (some (.error e, s), l) => (some (.error e, s), l)
    | (none, l) => (none, l) := by
  have h := Dialogue.run_bind env.answer (p.run.run s)
    (fun r => (ExceptT.bindCont f r.1).run r.2) l
  refine Eq.trans h ?_
  unfold exec
  rcases (p.run.run s).run env.answer l with ⟨_ | ⟨_ | a, s⟩, l⟩ <;> rfl

end Steps

variable {env} {s s' : Session} {l l' : Transcript}

theorem exec_bind_of_ok {p : Poll α} {a : α} (h : exec env p s l = (some (.ok a, s'), l'))
    (f : α → Poll β) : exec env (p >>= f) s l = exec env (f a) s' l' := by
  rw [exec_bind, h]

/-- What comes of two steps comes of the first alone if it fails, and else of the second. -/
theorem exec_bind_eq_some {p : Poll α} {f : α → Poll β} {r : Except Error β}
    (h : exec env (p >>= f) s l = (some (r, s'), l')) :
    (∃ e, exec env p s l = (some (.error e, s'), l') ∧ r = .error e) ∨
      ∃ a s₁ l₁, exec env p s l = (some (.ok a, s₁), l₁) ∧
        exec env (f a) s₁ l₁ = (some (r, s'), l') := by
  rw [exec_bind] at h
  rcases hp : exec env p s l with ⟨_ | ⟨e | a, s₁⟩, l₁⟩
  · rw [hp] at h
    cases h
  · rw [hp] at h
    cases h
    exact .inl ⟨e, rfl, rfl⟩
  · rw [hp] at h
    exact .inr ⟨a, s₁, l₁, rfl, h⟩

/-- The tracker's part of a poll changes the tracker alone, and never fails. -/
theorem exec_deliver (b : HeaderBatch) (s : Session) (l : Transcript) :
    exec env (deliver b) s l =
      match (s.tracker.handle b).run env.trackerAnswer l with
      | (some t, l) => (some (.ok ⟨⟩, { s with tracker := t }), l)
      | (none, l) => (none, l) := by
  have hvia : ((s.tracker.handle b).via ofTracker).run env.answer l =
      (s.tracker.handle b).run env.trackerAnswer l := by
    refine Dialogue.run_via (fun q l => ?_) _ _
    cases q <;> rfl
  unfold deliver
  rw [exec_bind_of_ok (exec_get env s l), exec_bind, exec_lift, hvia]
  rcases (s.tracker.handle b).run env.trackerAnswer l with ⟨_ | t, l⟩ <;> rfl

/-- The height that a poll goes on at. -/
def locate (tip : UInt32) : Poll UInt32 := do
  let next ← match (← get).follower.next with
    | some next => pure next
    | none => resume tip
  rewound tip next

/-- The height of the node's newest block, and the height that a poll goes on at. -/
def choose : Poll (UInt32 × UInt32) := do
  let tip ← orFail (← ask (.node .tip))
  let next ← locate tip
  pure (tip, next)

/-- Records that a batch has been delivered up to its last height. -/
def record (tip last : UInt32) (b : HeaderBatch) : Poll Nat := do
  match b.ids.getLast? with
  | some d => change fun f => { f with last := some (last, d) }
  | none => pure ()
  let following ← orHalt (heightAfter last 1)
  change fun f => { f with next := some following }
  if last = tip then change fun f => { f with inSync := true }
  pure b.ids.length

/-- Takes the batch from one height to another. -/
def take (tip next last : UInt32) : Poll Nat := do
  let batch ← orFail (← ask (.node (.headers next last)))
  deliver batch
  observeBlocks batch.ids
  record tip last batch

theorem exec_record {b : HeaderBatch} {d : Digest} (hids : b.ids.getLast? = some d)
    (tip last : UInt32) (s : Session) (l : Transcript) :
    exec env (record tip last b) s l =
      match heightAfter last 1 with
      | .ok following =>
        (some (.ok b.ids.length, { s with follower := { s.follower with
          last := some (last, d), next := some following,
          inSync := decide (last = tip) || s.follower.inSync } }), l)
      | .error _ => (none, l) := by
  simp only [record, hids]
  rw [exec_bind_of_ok (exec_change env s l _)]
  cases heightAfter last 1 with
  | error e => rw [exec_bind, exec_orHalt]; rfl
  | ok following =>
    rw [exec_bind_of_ok (exec_orHalt env _ _ _), exec_bind_of_ok (exec_change env _ _ _)]
    by_cases htop : last = tip
    · rw [if_pos htop, exec_bind_of_ok (exec_change env _ _ _), exec_pure, decide_eq_true htop]
      rfl
    · rw [if_neg htop, exec_pure, decide_eq_false htop]
      rfl

/-- The last height of the batch that starts at a height. -/
def batchEnd (maxBatch tip next : UInt32) : UInt32 :=
  .ofNat (min tip.toNat (next.toNat + (maxBatch.toNat - 1)))

theorem toNat_batchEnd (maxBatch tip next : UInt32) : (batchEnd maxBatch tip next).toNat =
    min tip.toNat (next.toNat + (maxBatch.toNat - 1)) := by
  have := tip.toNat_lt_size
  exact UInt32.toNat_ofNat_of_lt' (by omega)

/-- What a poll does at the height where it goes on. -/
def proceed (tip next : UInt32) : Poll Nat := do
  if tip < next then
    change fun f => { f with next := some next, inSync := true }
    pure 0
  else
    take tip next (batchEnd (← get).follower.maxBatch tip next)

theorem poll_eq : poll = choose >>= fun p => proceed p.1 p.2 := by
  rw [choose, bind_assoc]
  refine bind_congr fun r => ?_
  rw [bind_assoc]
  refine bind_congr fun tip => ?_
  rw [bind_assoc, locate, bind_assoc]
  refine bind_congr fun s => ?_
  cases s.follower.next with
  | some next => rfl
  | none => exact (bind_assoc (resume tip) (rewound tip) (proceed tip)).symm

end Attestor.Follower
