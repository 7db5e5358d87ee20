import Attestor.Formations
import Mathlib

/-! Which formation is filed after a history of them. Each one that arrives takes the place of
the filed record unless that is a formation with a later timestamp, so at the end the latest one
is filed, and among those with its timestamp the one that came last. The record before the history
takes part if it can be read. Two histories with the same formations in another order agree on the
timestamp, and on the formation if only one script has it. -/

namespace Attestor.Formations

/-- A script with the formation that it holds. -/
structure Filing (s : Formations) where
  script : Bytes
  formation : Formation
  ofScript_eq : Formation.ofScript script s.isTest = .ok formation

variable {s : Formations}

def Filing.timestamp (f : Filing s) : UInt64 := f.formation.timestamp

/-- The script as a filing, if it holds a formation. -/
def filing? (s : Formations) (script : Bytes) : Option (Filing s) :=
  match h : Formation.ofScript script s.isTest with
  | .ok f => some ⟨script, f, h⟩
  | .error _ => none

theorem filing?_of_ok {script : Bytes} {f : Formation}
    (h : Formation.ofScript script s.isTest = .ok f) : s.filing? script = some ⟨script, f, h⟩ := by
  unfold filing?
  split
  next g hg => cases h.symm.trans hg; rfl
  next e he => cases h.symm.trans he

theorem filing?_of_error {script : Bytes} {e : Formation.Error}
    (h : Formation.ofScript script s.isTest = .error e) : s.filing? script = none := by
  unfold filing?
  split
  next f hf => cases h.symm.trans hf
  next => rfl

theorem script_of_filing? {script : Bytes} {f : Filing s} (h : s.filing? script = some f) :
    f.script = script := by
  unfold filing? at h
  split at h
  · cases h
    rfl
  · cases h

@[simp] theorem filing?_script (f : Filing s) : s.filing? f.script = some f :=
  filing?_of_ok f.ofScript_eq

/-- The formations that compete for a record: the filed one if it can be read, then those that
arrive. -/
def candidates (s : Formations) (filed : Option Bytes) (fs : List (Filing s)) : List (Filing s) :=
  (filed.bind s.filing?).toList ++ fs

/-- A formation with the greatest timestamp, and the last one with it. -/
def Latest (cs : List (Filing s)) (c : Filing s) : Prop :=
  ∃ before after, cs = before ++ c :: after ∧ (∀ d ∈ before, d.timestamp ≤ c.timestamp) ∧
    ∀ d ∈ after, d.timestamp < c.timestamp

/-- No timestamp is greater. -/
def Newest (cs : List (Filing s)) (c : Filing s) : Prop :=
  c ∈ cs ∧ ∀ d ∈ cs, d.timestamp ≤ c.timestamp

/-- The record after a formation arrived. -/
def settle (s : Formations) (filed : Option Bytes) (f : Filing s) : Option Bytes :=
  if s.yields filed f.timestamp then some f.script else filed

section Order

variable {cs : List (Filing s)} {c d : Filing s}

theorem Latest.newest (h : Latest cs c) : Newest cs c := by
  obtain ⟨before, after, rfl, hbefore, hafter⟩ := h
  refine ⟨by simp, fun d hd => ?_⟩
  rcases List.mem_append.1 hd with hd | hd
  · exact hbefore d hd
  · rcases List.mem_cons.1 hd with rfl | hd
    · exact UInt64.le_refl _
    · exact UInt64.le_of_lt (hafter d hd)

theorem Newest.timestamp_eq (hc : Newest cs c) (hd : Newest cs d) : c.timestamp = d.timestamp :=
  UInt64.le_antisymm (hd.2 c hc.1) (hc.2 d hd.1)

theorem Newest.perm {cs' : List (Filing s)} (h : cs.Perm cs') (hc : Newest cs c) :
    Newest cs' c :=
  ⟨h.mem_iff.1 hc.1, fun d hd => hc.2 d (h.mem_iff.2 hd)⟩

theorem latest_append_of_le (h : ∀ d ∈ cs, d.timestamp ≤ c.timestamp) : Latest (cs ++ [c]) c :=
  ⟨cs, [], rfl, h, by simp⟩

theorem Latest.append_of_lt (h : Latest cs c) (hd : d.timestamp < c.timestamp) :
    Latest (cs ++ [d]) c := by
  obtain ⟨before, after, rfl, hbefore, hafter⟩ := h
  refine ⟨before, after ++ [d], by simp, hbefore, fun e he => ?_⟩
  rcases List.mem_append.1 he with he | he
  · exact hafter e he
  · rwa [List.mem_singleton.1 he]

/-- Of two places neither is behind the other if both have no newer formation in front and only
older ones behind. -/
theorem eq_of_cons_eq_append {after after' between : List (Filing s)}
    (h : c :: after = between ++ d :: after') (hbetween : ∀ e ∈ between, e.timestamp ≤ d.timestamp)
    (hafter : ∀ e ∈ after, e.timestamp < c.timestamp) : c = d := by
  cases between with
  | nil => exact (List.cons.inj h).1
  | cons e between =>
    obtain ⟨rfl, rfl⟩ := List.cons.inj h
    have hlt := UInt64.lt_of_lt_of_le (hafter d (by simp)) (hbetween c (by simp))
    exact absurd hlt (UInt64.lt_irrefl _)

theorem Latest.unique (hc : Latest cs c) (hd : Latest cs d) : c = d := by
  obtain ⟨before, after, rfl, hbefore, hafter⟩ := hc
  obtain ⟨before', after', hcs, hbefore', hafter'⟩ := hd
  obtain ⟨between, rfl, h⟩ | ⟨between, rfl, h⟩ := List.append_eq_append_iff.1 hcs
  · exact eq_of_cons_eq_append h (fun e he => hbefore' e (List.mem_append_right _ he)) hafter
  · exact (eq_of_cons_eq_append h (fun e he => hbefore e (List.mem_append_right _ he)) hafter').symm

end Order

theorem yields_of_filing? {script : Bytes} {c : Filing s} (h : s.filing? script = some c)
    (timestamp : UInt64) : s.yields (some script) timestamp = decide (c.timestamp ≤ timestamp) := by
  unfold filing? at h
  split at h
  next f hf =>
    cases h
    simp only [yields, hf]
    rfl
  next => cases h

theorem yields_of_filing?_eq_none {filed : Option Bytes} (h : filed.bind s.filing? = none)
    (timestamp : UInt64) : s.yields filed timestamp = true := by
  cases filed with
  | none => rfl
  | some script =>
    cases hf : Formation.ofScript script s.isTest with
    | error e => simp only [yields, hf]
    | ok f =>
      rw [Option.bind_some, filing?_of_ok hf] at h
      cases h

/-- The record after any number of arrivals: the latest formation if there is one, and what was
filed before if there is none. -/
theorem settled_cases (filed : Option Bytes) (fs : List (Filing s)) :
    (s.candidates filed fs = [] ∧ fs.foldl s.settle filed = filed) ∨
      ∃ c, Latest (s.candidates filed fs) c ∧ fs.foldl s.settle filed = some c.script := by
  induction fs using List.reverseRecOn with
  | nil =>
    cases hfiled : filed with
    | none => exact .inl ⟨rfl, rfl⟩
    | some script =>
      cases hc : s.filing? script with
      | none => exact .inl ⟨by simp [candidates, hc], rfl⟩
      | some c =>
        exact .inr ⟨c, ⟨[], [], by simp [candidates, hc], by simp, by simp⟩,
          by simp [script_of_filing? hc]⟩
  | append_singleton fs f ih =>
    have hcandidates : s.candidates filed (fs ++ [f]) = s.candidates filed fs ++ [f] :=
      (List.append_assoc _ _ _).symm
    rw [hcandidates, List.foldl_append, List.foldl_cons, List.foldl_nil]
    obtain ⟨hnil, hfold⟩ | ⟨c, hlatest, hfold⟩ := ih
    · refine .inr ⟨f, latest_append_of_le (by simp [hnil]), ?_⟩
      have hnone : filed.bind s.filing? = none := by
        simpa [candidates] using (List.append_eq_nil_iff.1 hnil).1
      rw [hfold, settle, yields_of_filing?_eq_none hnone, if_pos rfl]
    · rw [hfold, settle, yields_of_filing? (filing?_script c)]
      by_cases hle : c.timestamp ≤ f.timestamp
      · refine .inr ⟨f, latest_append_of_le fun d hd => ?_, by rw [if_pos (decide_eq_true hle)]⟩
        exact UInt64.le_trans (hlatest.newest.2 d hd) hle
      · refine .inr ⟨c, hlatest.append_of_lt (UInt64.not_le.1 hle), ?_⟩
        rw [if_neg (by simpa using hle)]

theorem foldl_settle_of_latest {filed : Option Bytes} {fs : List (Filing s)} {c : Filing s}
    (h : Latest (s.candidates filed fs) c) : fs.foldl s.settle filed = some c.script := by
  obtain ⟨hnil, -⟩ | ⟨d, hd, hfold⟩ := settled_cases filed fs
  · exact absurd h.newest.1 (by simp [hnil])
  · rw [hfold, h.unique hd]

end Attestor.Formations
