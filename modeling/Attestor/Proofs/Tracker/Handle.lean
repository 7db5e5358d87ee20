import Attestor.Dialogue
import Attestor.Proofs.Window.Apply
import Attestor.Tracker

/-! What a tracker does with a batch, whoever answers its questions. It takes the batch at once;
if too little of it is left the window is empty while the tracker asks whether it may go on and
for the node's newest headers, which become the window if they are linked. -/

namespace Attestor

namespace Tracker

open HeaderBatch (finish_eq_ok_none)

variable {t t' : Tracker} {b : HeaderBatch}

/-- A batch of headers extends or moves the window, which keeps its newest blocks, or empties
it. -/
theorem absorb_eq_ok {must : Bool} (h : t.absorb b = .ok (t', must)) :
    (b.headers = [] ∧ t' = t ∧ must = false) ∨
      (b.headers ≠ [] ∧ ∃ w linked, t.window.apply 0 b.headers = .ok (w, linked) ∧
        ((must = true ∧ t' = { t with window := .empty } ∧ (linked = 0 ∨ w.size < t.offset)) ∨
          (must = false ∧ t' = { t with window := w.trim t.offset } ∧ linked ≠ 0 ∧
            t.offset ≤ w.size))) := by
  unfold absorb at h
  cases hf : b.finish with
  | error e => simp [hf, bind, Except.bind] at h
  | ok height =>
    cases height with
    | none =>
      left
      simp only [hf, bind, Except.bind, pure, Except.pure, Except.ok.injEq, Prod.mk.injEq] at h
      exact ⟨finish_eq_ok_none.1 hf, h.1.symm, h.2.symm⟩
    | some k =>
      right
      refine ⟨(HeaderBatch.finish_eq_ok_some.1 hf).1, ?_⟩
      cases ha : t.window.apply 0 b.headers with
      | error e => simp [hf, ha, bind, Except.bind] at h
      | ok r =>
        obtain ⟨w, linked⟩ := r
        refine ⟨w, linked, rfl, ?_⟩
        simp only [hf, ha, bind, Except.bind, pure, Except.pure] at h
        split at h
        next hshort =>
          left
          simp only [Except.ok.injEq, Prod.mk.injEq] at h
          refine ⟨h.2.symm, h.1.symm, hshort.imp_right fun hlt => ?_⟩
          rw [Window.size_trim] at hlt
          omega
        next hfull =>
          right
          simp only [Except.ok.injEq, Prod.mk.injEq] at h
          rw [not_or, Window.size_trim] at hfull
          exact ⟨h.2.symm, h.1.symm, hfull.1, by omega⟩

/-- What comes of a batch whose own heights do not overflow, once it has been applied. -/
theorem absorb_eq_of_apply {w : Window} {linked : ℕ} (hne : b.headers ≠ [])
    (hlen : b.start.toNat + b.headers.length ≤ UInt32.size)
    (ha : t.window.apply 0 b.headers = .ok (w, linked)) :
    t.absorb b = .ok (if linked = 0 ∨ w.size < t.offset then ({ t with window := .empty }, true)
      else ({ t with window := w.trim t.offset }, false)) := by
  have hsize : (w.trim t.offset).size < t.offset ↔ w.size < t.offset := by
    rw [Window.size_trim]
    omega
  simp only [absorb, HeaderBatch.finish_of_le hne hlen, ha, bind, Except.bind, hsize]
  split_ifs <;> rfl

/-- A batch is taken if neither its own heights nor those of the window overflow. -/
theorem absorb_of_apply {w : Window} {linked : ℕ} (hne : b.headers ≠ [])
    (hlen : b.start.toNat + b.headers.length ≤ UInt32.size)
    (ha : t.window.apply 0 b.headers = .ok (w, linked)) :
    ∃ t' must, t.absorb b = .ok (t', must) :=
  ⟨_, _, absorb_eq_of_apply hne hlen ha⟩

theorem offset_absorb {must : Bool} (h : t.absorb b = .ok (t', must)) :
    t'.offset = t.offset := by
  rcases absorb_eq_ok h with ⟨-, rfl, -⟩ | ⟨-, w, linked, -, ⟨-, rfl, -⟩ | ⟨-, rfl, -⟩⟩ <;> rfl

/-- The window is empty while it is being rebuilt. -/
theorem window_absorb (h : t.absorb b = .ok (t', true)) : t'.window = .empty := by
  rcases absorb_eq_ok h with ⟨-, -, h⟩ | ⟨-, w, linked, -, ⟨-, rfl, -⟩ | ⟨h, -⟩⟩
  · cases h
  · rfl
  · cases h

/-- The tracker after the node answered; none if the answer's heights overflow. -/
def settled (t : Tracker) : Except Node.Error HeaderBatch → Option Tracker
  | .error _ => some t
  | .ok b =>
    match Window.ofBatch b with
    | .ok w => some { t with window := w.trim t.offset }
    | .error (.unlinked _ _) => some t
    | .error .overflow => none

/-- The tracker after the node answered, and what is told of it; none if the answer's heights
overflow. -/
def rebuilt (t : Tracker) : Except Node.Error HeaderBatch → Option (Tracker × Except Error Unit)
  | .error e => some (t, .error (.node e))
  | .ok b =>
    match Window.ofBatch b with
    | .ok w => some ({ t with window := w.trim t.offset }, .ok ())
    | .error (.unlinked id previous) =>
      some (t, .error (.malformed .headerBatch (unlinkedReason id previous)))
    | .error .overflow => none

theorem settled_eq (t : Tracker) (r : Except Node.Error HeaderBatch) :
    t.settled r = (t.rebuilt r).map Prod.fst := by
  cases r with
  | error e => rfl
  | ok b =>
    simp only [settled, rebuilt]
    rcases Window.ofBatch b with (⟨id, previous⟩ | _) | w <;> rfl

variable {σ : Type} (answer : (q : Question) → StateM σ q.Answer) (s : σ)

/-- The two questions of a tracker that rebuilds its window. -/
theorem rebuild_eq_ask (t : Tracker) : t.rebuild =
    .ask .canceled fun canceled =>
      if canceled then .done (t, .error (.canceled .recentHeaders))
      else .ask (.recent t.offset) fun r =>
        match t.rebuilt r with
        | some result => .done result
        | none => .halt := by
  refine congrArg (Dialogue.ask Question.canceled) (funext fun canceled => ?_)
  cases canceled with
  | true => rfl
  | false =>
    refine congrArg (Dialogue.ask (Question.recent t.offset)) (funext fun r => ?_)
    cases r with
    | error e => rfl
    | ok b =>
      simp only [rebuilt, Dialogue.bind, pure, Except.mapError, ExceptT.bindCont]
      rcases hw : Window.ofBatch b with (⟨id, previous⟩ | _) | w <;> rfl

theorem rebuild_eq (t : Tracker) : (Prod.fst <$> t.rebuild) =
    .ask .canceled fun canceled =>
      if canceled then .done t
      else .ask (.recent t.offset) fun r =>
        match t.settled r with
        | some t' => .done t'
        | none => .halt := by
  rw [rebuild_eq_ask]
  refine congrArg (Dialogue.ask Question.canceled) (funext fun canceled => ?_)
  cases canceled with
  | true => rfl
  | false =>
    refine congrArg (Dialogue.ask (Question.recent t.offset)) (funext fun r => ?_)
    simp only [settled_eq]
    cases t.rebuilt r <;> rfl

theorem run_rebuild : (Prod.fst <$> t.rebuild).run answer s =
    if (answer .canceled s).1 then (some t, (answer .canceled s).2)
    else
      (t.settled (answer (.recent t.offset) (answer .canceled s).2).1,
        (answer (.recent t.offset) (answer .canceled s).2).2) := by
  rw [rebuild_eq, Dialogue.run_ask]
  cases (answer .canceled s).1 with
  | true => rfl
  | false =>
    rw [if_neg Bool.false_ne_true, if_neg Bool.false_ne_true, Dialogue.run_ask]
    cases t.settled (answer (.recent t.offset) (answer .canceled s).2).1 <;> rfl

/-- Everything that comes of a batch. -/
theorem run_handle : (t.handle b).run answer s =
    match t.absorb b with
    | .error _ => (none, s)
    | .ok (t', false) => (some t', s)
    | .ok (t', true) =>
      if (answer .canceled s).1 then (some t', (answer .canceled s).2)
      else
        (t'.settled (answer (.recent t.offset) (answer .canceled s).2).1,
          (answer (.recent t.offset) (answer .canceled s).2).2) := by
  cases ha : t.absorb b with
  | error e =>
    rw [handle, ha]
    rfl
  | ok r =>
    obtain ⟨t', must⟩ := r
    cases must with
    | false =>
      rw [handle, ha]
      rfl
    | true =>
      have hrun : (t.handle b).run answer s = (Prod.fst <$> t'.rebuild).run answer s := by
        rw [handle, ha]
        rfl
      rw [← offset_absorb ha]
      exact hrun.trans (run_rebuild answer s)

end Tracker

end Attestor
