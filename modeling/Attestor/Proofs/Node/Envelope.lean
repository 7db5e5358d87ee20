import Attestor.Node.Client
import Attestor.Proofs.Reading

/-! The results of a batch of calls. Of several envelopes with the number of a call the last one
counts, and envelopes with any other number or none count for nothing, so the order of the rest
does not matter. There are results if every call has an envelope with a result and no error, and
then they stand in the order of the calls. Otherwise the first call that has none tells why. -/

namespace Attestor

namespace Node.Envelope

variable {α : Type} {es : List (Envelope α)} {count i : ℕ}

/-- The envelope that counts for a call. -/
def last? (es : List (Envelope α)) (i : ℕ) : Option (Envelope α) :=
  (es.filter fun e => e.id = some i).getLast?

/-- The envelope that counts for the call holds a result and no error. -/
def Answers (es : List (Envelope α)) (i : ℕ) (a : α) : Prop :=
  ∃ e, last? es i = some e ∧ e.error = none ∧ e.result = some a

/-- Why a call has no result: the node reports an error, or sends nothing for it, or an envelope
that is empty. -/
inductive Fails (method : String) (es : List (Envelope α)) (i : ℕ) : Error → Prop
  | reported {e : Envelope α} {f : Failure} (he : last? es i = some e) (hf : e.error = some f) :
      Fails method es i (.rpc method f.code f.message)
  | missing (he : last? es i = none) : Fails method es i (.emptyResult method)
  | empty {e : Envelope α} (he : last? es i = some e) (hf : e.error = none)
      (ha : e.result = none) : Fails method es i (.emptyResult method)

theorem outcome_eq_ok {method : String} {e : Envelope α} {a : α} :
    e.outcome method = .ok a ↔ e.error = none ∧ e.result = some a := by
  unfold outcome
  split
  · simp_all
  · simp_all
  · simp_all

theorem last?_append_singleton (es : List (Envelope α)) (e : Envelope α) (i : ℕ) :
    last? (es ++ [e]) i = if e.id = some i then some e else last? es i := by
  by_cases h : e.id = some i <;> simp [last?, List.filter_append, h]

theorem slots_append_singleton (count : ℕ) (es : List (Envelope α)) (e : Envelope α) :
    slots count (es ++ [e]) = file (slots count es) e := by
  rw [slots, List.foldl_append]
  rfl

theorem size_file (slots : Array (Option (Envelope α))) (e : Envelope α) :
    (file slots e).size = slots.size := by
  unfold file
  split
  · exact Array.size_setIfInBounds
  · rfl

theorem size_slots (count : ℕ) (es : List (Envelope α)) : (slots count es).size = count := by
  induction es using List.reverseRecOn with
  | nil => exact Array.size_replicate
  | append_singleton es e ih => rw [slots_append_singleton, size_file, ih]

/-- Every slot holds the last envelope with its number. -/
theorem getElem?_slots (count : ℕ) (es : List (Envelope α)) (i : ℕ) :
    (slots count es)[i]? = if i < count then some (last? es i) else none := by
  induction es using List.reverseRecOn with
  | nil => exact Array.getElem?_replicate
  | append_singleton es e ih =>
    rw [slots_append_singleton, file, last?_append_singleton]
    cases e.id with
    | none => exact ih
    | some j =>
      simp only [Array.getElem?_setIfInBounds, size_slots, ih, Option.some.injEq]
      by_cases hj : j = i
      · subst hj
        rw [if_pos rfl, if_pos rfl]
      · rw [if_neg hj, if_neg hj]

theorem toList_slots (count : ℕ) (es : List (Envelope α)) :
    (slots count es).toList = (List.range count).map (last? es) := by
  refine List.ext_getElem? fun i => ?_
  rw [Array.getElem?_toList, getElem?_slots, List.getElem?_map]
  split_ifs with hi
  · rw [List.getElem?_range hi]
    rfl
  · rw [List.getElem?_eq_none (by simpa using hi)]
    rfl

/-- What the envelope of a call comes to. -/
def settle (method : String) : Option (Envelope α) → Except Error α
  | some e => e.outcome method
  | none => .error (.emptyResult method)

theorem settle_last?_eq_ok {method : String} {a : α} :
    settle method (last? es i) = .ok a ↔ Answers es i a := by
  cases hlast : last? es i with
  | none => simp [settle, Answers, hlast]
  | some e => simp [settle, Answers, hlast, outcome_eq_ok]

theorem settle_last?_eq_error {method : String} {err : Error} :
    settle method (last? es i) = .error err ↔ Fails method es i err := by
  constructor
  · intro h
    cases hlast : last? es i with
    | none =>
      rw [hlast] at h
      cases h
      exact .missing hlast
    | some e =>
      rw [hlast, settle, outcome] at h
      split at h
      next f hf =>
        cases h
        exact .reported hlast hf
      next => cases h
      next hf ha =>
        cases h
        exact .empty hlast hf ha
  · rintro (⟨he, hf⟩ | he | ⟨he, hf, ha⟩)
    · simp only [settle, he, outcome, hf]
    · rw [he, settle]
    · simp only [settle, he, outcome, hf, ha]

theorem gather_eq_mapM (method : String) (count : ℕ) (es : List (Envelope α)) :
    gather method count es = (List.range count).mapM fun i => settle method (last? es i) := by
  rw [gather, toList_slots, List.mapM_map]
  rfl

/-- A batch has results if every call is answered, and they are what the calls are answered. -/
theorem gather_eq_ok {method : String} {rs : List α} : gather method count es = .ok rs ↔
    rs.length = count ∧ ∀ i a, rs[i]? = some a → Answers es i a := by
  rw [gather_eq_mapM, mapM_eq_ok]
  simp only [settle_last?_eq_ok, List.forall₂_iff_get, List.length_range, List.get_eq_getElem,
    List.getElem_range, List.getElem?_eq_some_iff]
  constructor
  · rintro ⟨hlen, h⟩
    refine ⟨hlen.symm, ?_⟩
    rintro i - ⟨hi, rfl⟩
    exact h i (hlen ▸ hi) hi
  · rintro ⟨hlen, h⟩
    exact ⟨hlen.symm, fun i _ hi => h i _ ⟨hi, rfl⟩⟩

/-- Without results there is the error of the first call that is not answered. -/
theorem gather_eq_error {method : String} {err : Error} : gather method count es = .error err ↔
    ∃ i < count, Fails method es i err ∧ ∀ j < i, ∃ a, Answers es j a := by
  have hcall (i j : ℕ) : (List.range count)[i]? = some j ↔ i < count ∧ i = j := by
    simp [List.getElem?_eq_some_iff]
  rw [gather_eq_mapM, mapM_eq_error]
  simp only [settle_last?_eq_ok, settle_last?_eq_error, hcall]
  constructor
  · rintro ⟨i, _, ⟨hi, rfl⟩, hfails, hbefore⟩
    exact ⟨i, hi, hfails, fun j hj => hbefore j hj j ⟨hj.trans hi, rfl⟩⟩
  · rintro ⟨i, hi, hfails, hbefore⟩
    refine ⟨i, i, ⟨hi, rfl⟩, hfails, ?_⟩
    rintro j hj _ ⟨-, rfl⟩
    exact hbefore j hj

/-- There are results if every call is answered. -/
theorem exists_gather_iff {method : String} :
    (∃ rs, gather method count es = .ok rs) ↔ ∀ i < count, ∃ a, Answers es i a := by
  constructor
  · rintro ⟨rs, hrs⟩ i hi
    obtain ⟨hlength, hanswers⟩ := gather_eq_ok.1 hrs
    exact ⟨_, hanswers i _ (List.getElem?_eq_getElem (hlength ▸ hi))⟩
  · intro hanswers
    cases hrs : gather method count es with
    | ok rs => exact ⟨rs, rfl⟩
    | error err =>
      obtain ⟨i, hi, hfails, -⟩ := gather_eq_error.1 hrs
      obtain ⟨a, ha⟩ := hanswers i hi
      have hsettled : settle method (last? es i) = .ok a := settle_last?_eq_ok.2 ha
      rw [settle_last?_eq_error.2 hfails] at hsettled
      cases hsettled

/-- Nothing but the envelopes that count for a call matters. -/
theorem gather_congr (method : String) {es' : List (Envelope α)}
    (h : ∀ i < count, last? es' i = last? es i) :
    gather method count es' = gather method count es := by
  rw [gather, gather, toList_slots, toList_slots,
    List.map_congr_left fun i hi => h i (List.mem_range.1 hi)]

/-- With distinct numbers there is no second envelope for a call. -/
theorem length_filter_le_one (hes : (es.filterMap Envelope.id).Nodup) (i : ℕ) :
    (es.filter fun e => e.id = some i).length ≤ 1 := by
  -- each envelope for the call puts its number into the list of numbers once more
  have hsame : (es.filter fun e => e.id = some i).filterMap Envelope.id =
      List.replicate (es.filter fun e => e.id = some i).length i := by
    have hid : ∀ e ∈ es.filter fun e => e.id = some i, e.id = some i :=
      fun e he => by simpa using List.of_mem_filter he
    rw [List.filterMap_congr hid, List.filterMap_eq_map', List.map_const']
  have hdistinct := hes.sublist ((List.filter_sublist (p := fun e => e.id = some i)).filterMap
    Envelope.id)
  rw [hsame] at hdistinct
  exact List.nodup_replicate.1 hdistinct

/-- With distinct numbers it does not matter where an envelope stands, nor what else there is. -/
theorem last?_of_perm {es' others : List (Envelope α)} (hes : (es.filterMap Envelope.id).Nodup)
    (hothers : ∀ e ∈ others, e.id ≠ some i) (hperm : es'.Perm (es ++ others)) :
    last? es' i = last? es i := by
  have hnone : (others.filter fun e => e.id = some i) = [] := by
    simpa using hothers
  have hfilter := hperm.filter fun e => e.id = some i
  rw [List.filter_append, hnone, List.append_nil] at hfilter
  rw [last?, last?]
  rcases Nat.le_one_iff_eq_zero_or_eq_one.1 (length_filter_le_one hes i) with hzero | hone
  · rw [List.length_eq_zero_iff] at hzero
    rw [hzero] at hfilter ⊢
    rw [hfilter.eq_nil]
  · obtain ⟨e, he⟩ := List.length_eq_one_iff.1 hone
    rw [he] at hfilter ⊢
    rw [List.perm_singleton.1 hfilter]

/-- An envelope counts for its call wherever it stands, if no other has its number. -/
theorem last?_eq_some_of_nodup (hes : (es.filterMap Envelope.id).Nodup) {e : Envelope α}
    (he : e ∈ es) (hid : e.id = some i) : last? es i = some e := by
  have hmem : e ∈ es.filter fun e => e.id = some i := List.mem_filter.2 ⟨he, by simpa using hid⟩
  obtain ⟨e', he'⟩ := List.length_eq_one_iff.1
    (le_antisymm (length_filter_le_one hes i) (List.length_pos_of_mem hmem))
  rw [he', List.mem_singleton] at hmem
  rw [last?, he', hmem]
  rfl

/-- What a call comes to is told by the last envelope with its number. There are results if all
calls are answered, and else the error of the first that is not. With distinct numbers neither
the order of the envelopes matters, nor those whose number no call has. -/
theorem gathered_by_number (method : String) (count : ℕ) (es : List (Envelope α)) :
    ((∃ rs, gather method count es = .ok rs) ↔ ∀ i < count, ∃ a, Answers es i a) ∧
    (∀ rs, gather method count es = .ok rs →
      rs.length = count ∧ ∀ i a, rs[i]? = some a → Answers es i a) ∧
    (∀ err, gather method count es = .error err ↔
      ∃ i < count, Fails method es i err ∧ ∀ j < i, ∃ a, Answers es j a) ∧
    ((es.filterMap Envelope.id).Nodup → ∀ others es' : List (Envelope α),
      (∀ e ∈ others, ∀ i < count, e.id ≠ some i) → es'.Perm (es ++ others) →
        gather method count es' = gather method count es) :=
  ⟨exists_gather_iff, fun _ => gather_eq_ok.1, fun _ => gather_eq_error,
    fun hes _ _ hothers hperm => gather_congr method fun i hi =>
      last?_of_perm hes (fun e he => hothers e he i hi) hperm⟩

/-- The answers to two calls. -/
def pairEnvelopes : List (Envelope String) := [⟨some "a", none, some 0⟩, ⟨some "b", none, some 1⟩]

/-- Envelopes without a number, or with that of a third call. -/
def strayEnvelopes : List (Envelope String) :=
  [⟨none, none, none⟩, ⟨some "c", none, some 2⟩, ⟨none, none, some 2⟩]

theorem gathered_by_number_of_pair : (pairEnvelopes.filterMap Envelope.id).Nodup ∧
    (∀ e ∈ strayEnvelopes, ∀ i < 2, e.id ≠ some i) ∧
    gather "getblockhash" 2 (strayEnvelopes ++ pairEnvelopes.reverse) = .ok ["a", "b"] := by
  have hdistinct : (pairEnvelopes.filterMap Envelope.id).Nodup := by decide
  have hstray : ∀ e ∈ strayEnvelopes, ∀ i < 2, e.id ≠ some i := by decide
  have hperm : (strayEnvelopes ++ pairEnvelopes.reverse).Perm (pairEnvelopes ++ strayEnvelopes) :=
    List.perm_append_comm.trans (pairEnvelopes.reverse_perm.append_right _)
  refine ⟨hdistinct, hstray, ?_⟩
  rw [(gathered_by_number "getblockhash" 2 pairEnvelopes).2.2.2 hdistinct _ _ hstray hperm]
  rfl

end Node.Envelope

end Attestor
