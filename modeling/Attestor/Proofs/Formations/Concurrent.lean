import Attestor.Proofs.Address.Bytes
import Attestor.Proofs.Formations.Observe

/-! Many saves at work on one storage. Each of them asks one question after another, and between
any two of them the others may ask theirs. Reads and writes are single steps that may fail, a
write that fails writes nothing, and any save may be canceled wherever it looks. A save that holds
the lock knows what is filed under its key, since nobody else writes by then, so it never puts an
older formation in the place of a newer one, and when it tells that it wrote, it did. -/

namespace Attestor.Formations

variable {s : Formations}

/-- The timestamp of what is filed, if it is a formation. -/
def timestamp? (s : Formations) (filed : Option Bytes) : Option UInt64 :=
  filed.bind fun script =>
    (Formation.ofScript script s.isTest).toOption.map Formation.timestamp

@[simp] theorem timestamp?_script (f : Filing s) :
    s.timestamp? (some f.script) = some f.timestamp := by
  rw [timestamp?, Option.bind_some, f.ofScript_eq]
  rfl

/-- A record gives way to a timestamp unless it has a later one. -/
theorem yields_iff {filed : Option Bytes} {t : UInt64} :
    s.yields filed t = true ↔ ∀ u ∈ s.timestamp? filed, u ≤ t := by
  cases filed with
  | none => simp [yields, timestamp?]
  | some script =>
    cases h : Formation.ofScript script s.isTest with
    | error e => simp [yields, timestamp?, h, Except.toOption]
    | ok f => simp [yields, timestamp?, h, Except.toOption]

namespace Concurrent

/-- What a save still does. -/
abbrev Rest : Type := Dialogue Question Question.Answer (Except Error Bool)

/-- A save at work: what it was called with, and what is left of it. -/
structure Saver (s : Formations) where
  address : Address
  filing : Filing s
  rest : Rest

/-- A save as it is called. -/
def Saver.called (a : Address) (f : Filing s) : Saver s :=
  ⟨a, f, (s.save a f.formation f.script).run⟩

structure System (s : Formations) where
  scripts : Bytes → Option Bytes
  /-- The place of the saver that holds the lock. -/
  holder : Option ℕ
  savers : List (Saver s)

/-- What the saver at a place may be answered, and the scripts and the lock after it. -/
inductive Answered (i : ℕ) (scripts : Bytes → Option Bytes) (holder : Option ℕ) :
    (q : Question) → q.Answer → (Bytes → Option Bytes) → Option ℕ → Prop
  | canceled (b : Bool) : Answered i scripts holder .canceled b scripts holder
  | acquire (hfree : holder = none) : Answered i scripts holder .acquire () scripts (some i)
  | release : Answered i scripts holder .release () scripts none
  | read (key : Bytes) : Answered i scripts holder (.read key) (.ok (scripts key)) scripts holder
  | readFailed (key : Bytes) (e : Error) :
    Answered i scripts holder (.read key) (.error e) scripts holder
  | write (key script : Bytes) :
    Answered i scripts holder (.write key script) (.ok ())
      (Function.update scripts key (some script)) holder
  | writeFailed (key script : Bytes) (e : Error) :
    Answered i scripts holder (.write key script) (.error e) scripts holder

/-- One step: a save is called, or one that is at work asks its next question. -/
inductive Step : System s → System s → Prop
  | call (w : System s) (a : Address) (f : Filing s) :
    Step w { w with savers := w.savers ++ [.called a f] }
  | ask {w : System s} {i : ℕ} {a : Address} {f : Filing s} {q : Question}
    {next : q.Answer → Rest} {answer : q.Answer} {scripts : Bytes → Option Bytes}
    {holder : Option ℕ}
    (hi : w.savers[i]? = some ⟨a, f, .ask q next⟩)
    (ha : Answered i w.scripts w.holder q answer scripts holder) :
    Step w ⟨scripts, holder, w.savers.set i ⟨a, f, next answer⟩⟩

/-! ### What a save does by itself

A save is followed through its stages, each of which ends in giving the lock back. -/

/-- How far a save has come. One that holds the lock knows the record under its key. -/
inductive Phase where
  | before
  | inside (record : Option Bytes) (wrote : Bool)
  | after (wrote : Bool)

def Phase.wrote : Phase → Bool
  | before => false
  | inside _ wrote | after wrote => wrote

/-- What a save may still do when it has come so far: it writes once at most, its own script
under its own key and over a record that yields, and tells whether it did. -/
inductive Conducts (a : Address) (f : Filing s) : Phase → Rest → Prop
  | acquire {next : Unit → Rest}
    (h : ∀ record, Conducts a f (.inside record false) (next ())) :
    Conducts a f .before (.ask .acquire next)
  | canceled {record : Option Bytes} {wrote : Bool} {next : Bool → Rest}
    (h : ∀ b, Conducts a f (.inside record wrote) (next b)) :
    Conducts a f (.inside record wrote) (.ask .canceled next)
  | read {record : Option Bytes} {wrote : Bool}
    {next : Except Error (Option Bytes) → Rest}
    (h : Conducts a f (.inside record wrote) (next (.ok record)))
    (hfailed : ∀ e, Conducts a f (.inside record wrote) (next (.error e))) :
    Conducts a f (.inside record wrote) (.ask (.read a.bytes) next)
  | write {record : Option Bytes} {next : Except Error Unit → Rest}
    (hyields : s.yields record f.timestamp = true)
    (h : Conducts a f (.inside (some f.script) true) (next (.ok ())))
    (hfailed : ∀ e, Conducts a f (.inside record false) (next (.error e))) :
    Conducts a f (.inside record false) (.ask (.write a.bytes f.script) next)
  | release {record : Option Bytes} {wrote : Bool} {next : Unit → Rest}
    (h : Conducts a f (.after wrote) (next ())) :
    Conducts a f (.inside record wrote) (.ask .release next)
  | done {r : Except Error Bool} {wrote : Bool} (h : r = .ok true ↔ wrote = true) :
    Conducts a f (.after wrote) (.done r)

/-- The end of a save, which gives the lock back. -/
def leaving (r : Except Error Bool) : Rest := .ask .release fun _ => .done r

/-- What a save does about the record that it has read. -/
def deciding (a : Address) (f : Filing s) (filed : Option Bytes) : Rest :=
  if s.yields filed f.timestamp then
    .ask .canceled fun canceled =>
      if canceled then leaving (.error (.canceled .writeFormation))
      else .ask (.write a.bytes f.script) fun
        | .ok () => leaving (.ok true)
        | .error e => leaving (.error e)
  else leaving (.ok false)

/-- What a save does once it has the lock. -/
def looking (a : Address) (f : Filing s) : Rest :=
  .ask .canceled fun canceled =>
    if canceled then leaving (.error (.canceled .readFormation))
    else .ask (.read a.bytes) fun
      | .ok filed => deciding a f filed
      | .error e => leaving (.error e)

theorem ask_congr {q : Question} {next next' : q.Answer → Rest}
    (h : ∀ answer, next answer = next' answer) : Dialogue.ask q next = Dialogue.ask q next' :=
  congrArg (Dialogue.ask q) (funext h)

theorem deciding_eq (a : Address) (f : Filing s) (filed : Option Bytes) :
    Dialogue.bind (ExceptT.run (if s.yields filed f.timestamp then
      do write a.bytes f.script; pure true else pure false : Action Bool)) leaving =
        deciding a f filed := by
  unfold deciding
  split_ifs
  · refine ask_congr (q := .canceled) fun canceled => ?_
    cases canceled with
    | true => rfl
    | false =>
      refine ask_congr (q := .write a.bytes f.script) fun answer => ?_
      cases answer <;> rfl
  · rfl

theorem called_eq (a : Address) (f : Filing s) :
    Saver.called a f = ⟨a, f, .ask .acquire fun _ => looking a f⟩ := by
  refine congrArg (Saver.mk a f) (ask_congr (q := .acquire) fun _ =>
    ask_congr (q := .canceled) fun canceled => ?_)
  cases canceled with
  | true => rfl
  | false =>
    refine ask_congr (q := .read a.bytes) fun answer => ?_
    cases answer with
    | error e => rfl
    | ok filed => exact deciding_eq a f filed

theorem conducts_leaving {a : Address} {f : Filing s} {record : Option Bytes} {wrote : Bool}
    {r : Except Error Bool} (h : r = .ok true ↔ wrote = true) :
    Conducts a f (.inside record wrote) (leaving r) :=
  .release (.done h)

theorem conducts_deciding (a : Address) (f : Filing s) (record : Option Bytes) :
    Conducts a f (.inside record false) (deciding a f record) := by
  unfold deciding
  split_ifs with hyields
  · refine .canceled fun canceled => ?_
    cases canceled with
    | true => exact conducts_leaving (by simp)
    | false => exact .write hyields (conducts_leaving (by simp)) fun e => conducts_leaving (by simp)
  · exact conducts_leaving (by simp)

theorem conducts_called (a : Address) (f : Filing s) :
    Conducts a f .before (Saver.called a f).rest := by
  rw [called_eq]
  refine .acquire fun record => .canceled fun canceled => ?_
  cases canceled with
  | true => exact conducts_leaving (by simp)
  | false => exact .read (conducts_deciding a f record) fun e => conducts_leaving (by simp)

/-- A save that holds the lock has been told what is filed under its key. -/
def Informed (i : ℕ) (a : Address) (scripts : Bytes → Option Bytes) (holder : Option ℕ) :
    Phase → Prop
  | .inside record _ => holder = some i ∧ scripts a.bytes = record
  | _ => True

variable {start scripts scripts' : Bytes → Option Bytes} {holder holder' : Option ℕ} {i j : ℕ}
  {a : Address} {f : Filing s} {p p' : Phase} {t u : UInt64}

/-- What a step of a save does to the scripts: nothing, or it writes the newer formation. -/
inductive Effect (a : Address) (f : Filing s) (scripts : Bytes → Option Bytes) (p p' : Phase) :
    (Bytes → Option Bytes) → Prop
  | nothing (hwrote : p'.wrote = p.wrote) : Effect a f scripts p p' scripts
  | wrote (hyields : s.yields (scripts a.bytes) f.timestamp = true) (hwrote : p'.wrote = true) :
    Effect a f scripts p p' (Function.update scripts a.bytes (some f.script))

/-- A step of a save keeps what it knows, and what a save at another place knows that holds the
lock. -/
theorem Conducts.step {q : Question} {next : q.Answer → Rest} {answer : q.Answer}
    (h : Conducts a f p (.ask q next)) (hp : Informed i a scripts holder p)
    (ha : Answered i scripts holder q answer scripts' holder') :
    ∃ p', Conducts a f p' (next answer) ∧ Informed i a scripts' holder' p' ∧
      (∀ j ≠ i, holder = some j → holder' = some j ∧ scripts' = scripts) ∧
      Effect a f scripts p p' scripts' := by
  -- whoever writes or gives the lock back has it, so that nobody else does
  have hother : ∀ {j}, j ≠ i → holder = some i → holder ≠ some j :=
    fun hj hi hj' => hj (Option.some.inj (hj'.symm.trans hi))
  cases h with
  | acquire h =>
    cases ha with
    | acquire hfree =>
      exact ⟨_, h _, ⟨rfl, rfl⟩, fun j _ hj => absurd (hfree.symm.trans hj) nofun, .nothing rfl⟩
  | canceled h =>
    cases ha
    exact ⟨_, h _, hp, fun _ _ hj => ⟨hj, rfl⟩, .nothing rfl⟩
  | read h hfailed =>
    cases ha with
    | read => exact ⟨_, hp.2 ▸ h, hp, fun _ _ hj => ⟨hj, rfl⟩, .nothing rfl⟩
    | readFailed _ e => exact ⟨_, hfailed e, hp, fun _ _ hj => ⟨hj, rfl⟩, .nothing rfl⟩
  | write hyields h hfailed =>
    cases ha with
    | write =>
      refine ⟨_, h, ⟨hp.1, Function.update_self _ _ _⟩, fun j hj hj' => ?_,
        .wrote (hp.2.symm ▸ hyields) rfl⟩
      exact absurd hj' (hother hj hp.1)
    | writeFailed _ _ e => exact ⟨_, hfailed e, hp, fun _ _ hj => ⟨hj, rfl⟩, .nothing rfl⟩
  | release h =>
    cases ha
    exact ⟨_, h, trivial, fun j hj hj' => absurd hj' (hother hj hp.1), .nothing rfl⟩

/-! ### What all saves together leave -/

/-- The greatest of the times, none if there are none. -/
def IsLatest (times : Set UInt64) : Option UInt64 → Prop
  | none => times = ∅
  | some t => IsGreatest times t

theorem IsLatest.insert {times : Set UInt64} {o : Option UInt64} (ho : IsLatest times o)
    (hle : ∀ u ∈ o, u ≤ t) : IsLatest (insert t times) (some t) := by
  refine ⟨Set.mem_insert t times, fun u hu => ?_⟩
  rcases hu with rfl | hu
  · exact UInt64.le_refl _
  · cases o with
    | none => exact absurd (ho ▸ hu : u ∈ (∅ : Set UInt64)) (Set.notMem_empty u)
    | some v => exact UInt64.le_trans (ho.2 hu) (hle v rfl)

/-- With more times there is a latest one if there was one before, and it is no earlier. -/
theorem IsLatest.mono {times times' : Set UInt64} {o o' : Option UInt64} (ho : IsLatest times o)
    (ho' : IsLatest times' o') (h : times ⊆ times') : ∀ t ∈ o, ∃ u ∈ o', t ≤ u := by
  rintro t rfl
  cases o' with
  | none => exact absurd (ho' ▸ h ho.1 : t ∈ (∅ : Set UInt64)) (Set.notMem_empty t)
  | some u => exact ⟨u, rfl, ho'.2 (h ho.1)⟩

/-- The times that count for an address: that of the record at the start, and those of the saves
that have written under it. -/
def times (start : Bytes → Option Bytes) (savers : List (Saver s)) (phase : ℕ → Phase)
    (a : Address) : Set UInt64 :=
  {t | s.timestamp? (start a.bytes) = some t ∨ ∃ i c, savers[i]? = some c ∧
    c.address = a ∧ (phase i).wrote = true ∧ c.filing.timestamp = t}

variable {savers : List (Saver s)} {phase : ℕ → Phase} {c : Saver s}

theorem getElem?_set_cases {α : Type} {l : List α} {x y : α} (h : (l.set i x)[j]? = some y) :
    (j = i ∧ y = x) ∨ (j ≠ i ∧ l[j]? = some y) := by
  by_cases hj : j = i
  · subst hj
    obtain ⟨hlt, hget⟩ := List.getElem?_eq_some_iff.1 h
    exact .inl ⟨rfl, hget.symm.trans (List.getElem_set_self _)⟩
  · rw [List.getElem?_set_ne (Ne.symm hj)] at h
    exact .inr ⟨hj, h⟩

theorem getElem?_append_cases {α : Type} {l : List α} {x y : α} (h : (l ++ [x])[j]? = some y) :
    (j = l.length ∧ y = x) ∨ (j ≠ l.length ∧ l[j]? = some y) := by
  rcases Nat.lt_or_ge j l.length with hlt | hge
  · rw [List.getElem?_append_left hlt] at h
    exact .inr ⟨hlt.ne, h⟩
  · rw [List.getElem?_append_right hge, List.getElem?_singleton] at h
    split_ifs at h with hj
    exact .inl ⟨by omega, (Option.some.inj h).symm⟩

/-- A save that has not begun adds no time. -/
theorem times_append (hc : p.wrote = false) :
    times start (savers ++ [c]) (Function.update phase savers.length p) a =
      times start savers phase a := by
  ext t
  refine or_congr_right ⟨?_, ?_⟩
  · rintro ⟨j, d, hj, haddress, hwrote, ht⟩
    rcases getElem?_append_cases hj with ⟨rfl, rfl⟩ | ⟨hne, hj⟩
    · rw [Function.update_self, hc] at hwrote
      cases hwrote
    · rw [Function.update_of_ne hne] at hwrote
      exact ⟨j, d, hj, haddress, hwrote, ht⟩
  · rintro ⟨j, d, hj, hd⟩
    have hlt : j < savers.length := (List.getElem?_eq_some_iff.1 hj).1
    refine ⟨j, d, by rwa [List.getElem?_append_left hlt], ?_⟩
    rwa [Function.update_of_ne hlt.ne]

/-- A step of a save adds its time if it has written by then. -/
theorem times_set (hi : savers[i]? = some c) (rest : Rest)
    (hwrote : (phase i).wrote = true → p.wrote = true) :
    times start (savers.set i { c with rest := rest }) (Function.update phase i p) a =
      times start savers phase a ∪
        {t | c.address = a ∧ p.wrote = true ∧ c.filing.timestamp = t} := by
  have hself : (savers.set i { c with rest := rest })[i]? = some { c with rest := rest } :=
    List.getElem?_set_self (List.getElem?_eq_some_iff.1 hi).1
  have hadd : ∀ t, (c.address = a ∧ p.wrote = true ∧ c.filing.timestamp = t) →
      t ∈ times start (savers.set i { c with rest := rest }) (Function.update phase i p) a :=
    fun t ht => .inr ⟨i, _, hself, by rwa [Function.update_self]⟩
  ext t
  constructor
  · rintro (ht | ⟨j, d, hj, hd⟩)
    · exact .inl (.inl ht)
    · rcases getElem?_set_cases hj with ⟨rfl, rfl⟩ | ⟨hne, hj⟩
      · rw [Function.update_self] at hd
        exact .inr hd
      · rw [Function.update_of_ne hne] at hd
        exact .inl (.inr ⟨j, d, hj, hd⟩)
  · rintro ((ht | ⟨j, d, hj, ha, hd, ht⟩) | ht)
    · exact .inl ht
    · by_cases hne : j = i
      · subst hne
        cases hi.symm.trans hj
        exact hadd t ⟨ha, hwrote hd, ht⟩
      · exact .inr ⟨j, d, by rwa [List.getElem?_set_ne (Ne.symm hne)], ha,
          by rwa [Function.update_of_ne hne], ht⟩
    · exact hadd t ht

/-- A save goes on rightly from where it stands, and knows what it has been told. -/
structure Stands (scripts : Bytes → Option Bytes) (holder : Option ℕ) (i : ℕ) (c : Saver s)
    (p : Phase) : Prop where
  conducts : Conducts c.address c.filing p c.rest
  informed : Informed i c.address scripts holder p

/-- The invariant: every save stands right, and what is filed is the latest of what counts. -/
structure Orderly (start : Bytes → Option Bytes) (w : System s) (phase : ℕ → Phase) : Prop where
  stands : ∀ i c, w.savers[i]? = some c → Stands w.scripts w.holder i c (phase i)
  latest : ∀ a, IsLatest (times start w.savers phase a) (s.timestamp? (w.scripts a.bytes))

theorem orderly_start (start : Bytes → Option Bytes) :
    Orderly (s := s) start ⟨start, none, []⟩ fun _ => .before where
  stands _ _ h := nomatch h
  latest a := by
    have htimes : times (s := s) start [] (fun _ => .before) a =
        {t | s.timestamp? (start a.bytes) = some t} := by
      ext t
      simp [times]
    rw [htimes]
    cases s.timestamp? (start a.bytes) with
    | none => simp [IsLatest]
    | some t => exact ⟨rfl, fun u hu => Option.some.inj hu ▸ UInt64.le_refl _⟩

theorem Orderly.call {w : System s} (h : Orderly start w phase) (a : Address) (f : Filing s) :
    Orderly start { w with savers := w.savers ++ [.called a f] }
      (Function.update phase w.savers.length .before) where
  stands j d hj := by
    rcases getElem?_append_cases hj with ⟨rfl, rfl⟩ | ⟨hne, hj⟩
    · rw [Function.update_self]
      exact ⟨conducts_called a f, trivial⟩
    · rw [Function.update_of_ne hne]
      exact h.stands j d hj
  latest b := by
    rw [times_append rfl]
    exact h.latest b

/-- What another save knows is still so after a step that takes nothing from a holder of the
lock. -/
theorem Informed.of_kept (h : Informed j a scripts holder p)
    (hkept : holder = some j → holder' = some j ∧ scripts' = scripts) :
    Informed j a scripts' holder' p := by
  cases p with
  | before | after => trivial
  | inside record wrote =>
    obtain ⟨hholder, hscripts⟩ := hkept h.1
    exact ⟨hholder, hscripts ▸ h.2⟩

/-- The record is the latest again after a step of a save. -/
theorem Effect.latest (h : Effect c.address c.filing scripts (phase i) p scripts')
    (hi : savers[i]? = some c) (rest : Rest)
    (hlatest : IsLatest (times start savers phase a) (s.timestamp? (scripts a.bytes))) :
    IsLatest (times start (savers.set i { c with rest := rest }) (Function.update phase i p) a)
        (s.timestamp? (scripts' a.bytes)) ∧
      times start savers phase a ⊆
        times start (savers.set i { c with rest := rest }) (Function.update phase i p) a := by
  cases h with
  | nothing hwrote =>
    -- if the save has written, its time has counted before
    have hsame : times start (savers.set i { c with rest := rest }) (Function.update phase i p) a =
        times start savers phase a := by
      rw [times_set hi rest (hwrote ▸ id)]
      refine Set.union_eq_self_of_subset_right fun t ht => ?_
      exact .inr ⟨i, c, hi, ht.1, hwrote ▸ ht.2.1, ht.2.2⟩
    rw [hsame]
    exact ⟨hlatest, subset_rfl⟩
  | wrote hyields hwrote =>
    rw [times_set hi rest fun _ => hwrote]
    refine ⟨?_, Set.subset_union_left⟩
    by_cases ha : c.address = a
    · subst ha
      have htimes : {t | c.address = c.address ∧ p.wrote = true ∧ c.filing.timestamp = t} =
          {c.filing.timestamp} := by
        ext t
        simp [hwrote, eq_comm]
      rw [htimes, Set.union_singleton, Function.update_self, timestamp?_script]
      exact hlatest.insert (yields_iff.1 hyields)
    · have hbytes : a.bytes ≠ c.address.bytes := fun hb => ha (Address.bytes_injective hb).symm
      have htimes : {t | c.address = a ∧ p.wrote = true ∧ c.filing.timestamp = t} = ∅ := by
        ext t
        simp [ha]
      rwa [htimes, Set.union_empty, Function.update_of_ne hbytes]

/-- Every step keeps the invariant, and what has counted counts from then on. -/
theorem Orderly.step {w w' : System s} (h : Orderly start w phase) (hw : Step w w') :
    ∃ phase', Orderly start w' phase' ∧
      ∀ a, times start w.savers phase a ⊆ times start w'.savers phase' a := by
  cases hw with
  | call a f => exact ⟨_, h.call a f, fun b => (times_append rfl).symm.subset⟩
  | @ask i a f q next answer scripts holder hi ha =>
    obtain ⟨hconducts, hinformed⟩ := h.stands i _ hi
    obtain ⟨p, hconducts', hinformed', hkept, heffect⟩ := hconducts.step hinformed ha
    have hlatest := fun b => heffect.latest hi (next answer) (h.latest b)
    refine ⟨Function.update phase i p, ⟨fun j d hj => ?_, fun b => (hlatest b).1⟩,
      fun b => (hlatest b).2⟩
    rcases getElem?_set_cases hj with ⟨rfl, rfl⟩ | ⟨hne, hj⟩
    · rw [Function.update_self]
      exact ⟨hconducts', hinformed'⟩
    · rw [Function.update_of_ne hne]
      obtain ⟨hconducts, hinformed⟩ := h.stands j d hj
      exact ⟨hconducts, hinformed.of_kept (hkept j hne)⟩

theorem Orderly.steps {w w' : System s} (h : Orderly start w phase)
    (hw : Relation.ReflTransGen Step w w') :
    ∃ phase', Orderly start w' phase' ∧
      ∀ a, times start w.savers phase a ⊆ times start w'.savers phase' a := by
  induction hw with
  | refl => exact ⟨phase, h, fun _ => subset_rfl⟩
  | tail _ hstep ih =>
    obtain ⟨phase₁, h₁, hsubset₁⟩ := ih
    obtain ⟨phase₂, h₂, hsubset₂⟩ := h₁.step hstep
    exact ⟨phase₂, h₂, fun a => (hsubset₁ a).trans (hsubset₂ a)⟩

/-! ### The record of an address -/

/-- Whether a save has told that it wrote. -/
def Saver.Saved (c : Saver s) : Prop := c.rest = .done (.ok true)

/-- Whether a save is over. -/
def Saver.Ended (c : Saver s) : Prop := ∃ r, c.rest = .done r

/-- The timestamp of what is filed for an address, if it is a formation. -/
def System.timestamp? (w : System s) (a : Address) : Option UInt64 :=
  s.timestamp? (w.scripts a.bytes)

/-- Once all saves are over, those that have written are those that tell so. -/
theorem Orderly.times_eq {w : System s} (h : Orderly start w phase)
    (hended : ∀ c ∈ w.savers, c.Ended) (a : Address) :
    times start w.savers phase a = {t | s.timestamp? (start a.bytes) = some t ∨
      ∃ c ∈ w.savers, c.address = a ∧ c.Saved ∧ c.filing.timestamp = t} := by
  have htold : ∀ i c, w.savers[i]? = some c → ((phase i).wrote = true ↔ c.Saved) := by
    intro i c hi
    obtain ⟨r, hr⟩ := hended c (List.mem_of_getElem? hi)
    have hconducts := (h.stands i c hi).conducts
    rw [hr] at hconducts
    generalize phase i = p at hconducts ⊢
    cases hconducts with
    | done hdone =>
      rw [Saver.Saved, hr, Dialogue.done.injEq]
      exact hdone.symm
  ext t
  refine or_congr_right ⟨?_, ?_⟩
  · rintro ⟨i, c, hi, ha, hwrote, ht⟩
    exact ⟨c, List.mem_of_getElem? hi, ha, (htold i c hi).1 hwrote, ht⟩
  · rintro ⟨c, hc, ha, hsaved, ht⟩
    obtain ⟨i, hi⟩ := List.mem_iff_getElem?.1 hc
    exact ⟨i, c, hi, ha, (htold i c hi).2 hsaved, ht⟩

/-- Whatever saves are at work in whatever order, and whatever fails or is canceled, the
timestamp of a record never decreases; and when all are over, it is the latest of that at the
start and those of the saves that told that they wrote. -/
theorem concurrent_saves_never_regress {w : System s}
    (h : Relation.ReflTransGen Step ⟨start, none, []⟩ w) (a : Address) :
    (∀ w', Relation.ReflTransGen Step w w' →
      ∀ t ∈ w.timestamp? a, ∃ t' ∈ w'.timestamp? a, t ≤ t') ∧
    ((∀ c ∈ w.savers, c.Ended) →
      IsLatest {t | s.timestamp? (start a.bytes) = some t ∨
        ∃ c ∈ w.savers, c.address = a ∧ c.Saved ∧ c.filing.timestamp = t} (w.timestamp? a)) := by
  obtain ⟨phase, horderly, -⟩ := (orderly_start start).steps h
  constructor
  · intro w' hw'
    obtain ⟨phase', horderly', hsubset⟩ := horderly.steps hw'
    exact (horderly.latest a).mono (horderly'.latest a) (hsubset a)
  · intro hended
    rw [← horderly.times_eq hended a]
    exact horderly.latest a

/-! ### An offer that is saved while another save is canceled -/

theorem step_at {q : Question} {next : q.Answer → Rest} {answer : q.Answer}
    (hi : i < savers.length) (ha : Answered i scripts holder q answer scripts' holder') :
    Step ⟨scripts, holder, savers.set i ⟨a, f, .ask q next⟩⟩
      ⟨scripts', holder', savers.set i ⟨a, f, next answer⟩⟩ := by
  have hstep := Step.ask (w := ⟨scripts, holder, savers.set i ⟨a, f, .ask q next⟩⟩)
    (List.getElem?_set_self hi) ha
  rwa [List.set_set] at hstep

theorem step_lock (hi : savers[i]? = some (.called a f)) :
    Step ⟨scripts, none, savers⟩ ⟨scripts, some i, savers.set i ⟨a, f, looking a f⟩⟩ :=
  .ask (w := ⟨scripts, none, savers⟩) (called_eq a f ▸ hi) (.acquire rfl)

/-- A save that finds the lock free goes through over a record that yields. -/
theorem steps_saved (hi : savers[i]? = some (.called a f))
    (hyields : s.yields (scripts a.bytes) f.timestamp = true) :
    Relation.ReflTransGen Step ⟨scripts, none, savers⟩
      ⟨Function.update scripts a.bytes (some f.script), none,
        savers.set i ⟨a, f, .done (.ok true)⟩⟩ := by
  have hlt : i < savers.length := (List.getElem?_eq_some_iff.1 hi).1
  have hdeciding : Relation.ReflTransGen Step
      ⟨scripts, some i, savers.set i ⟨a, f, deciding a f (scripts a.bytes)⟩⟩
      ⟨Function.update scripts a.bytes (some f.script), none,
        savers.set i ⟨a, f, .done (.ok true)⟩⟩ := by
    rw [deciding, if_pos hyields]
    exact .head (step_at hlt (.canceled false)) (.head (step_at hlt (.write _ _))
      (.single (step_at hlt .release)))
  have hlooking : Relation.ReflTransGen Step ⟨scripts, none, savers⟩
      ⟨scripts, some i, savers.set i ⟨a, f, deciding a f (scripts a.bytes)⟩⟩ :=
    .head (step_lock hi) (.head (step_at hlt (.canceled false))
      (.single (step_at hlt (.read _))))
  exact hlooking.trans hdeciding

/-- Records that hold an offer when the saves begin. -/
def offered : Bytes → Option Bytes :=
  Function.update (fun _ => none) (Address.ofKey offerKey).bytes (some (offerScript 5))

def laterOffer : Filing ⟨.testnet, true⟩ := offerFiling 10 (by decide)

def canceledOffer : Filing ⟨.testnet, true⟩ := offerFiling 7 (by decide)

def bothCalled : List (Saver ⟨.testnet, true⟩) :=
  [.called (.ofKey offerKey) laterOffer, .called (.ofKey offerKey) canceledOffer]

def oneCanceled : List (Saver ⟨.testnet, true⟩) :=
  bothCalled.set 1 ⟨.ofKey offerKey, canceledOffer, .done (.error (.canceled .readFormation))⟩

/-- One save is canceled while it has the lock and the other one waits; then that one writes. -/
def afterSaves : System ⟨.testnet, true⟩ where
  scripts := Function.update offered (Address.ofKey offerKey).bytes (some laterOffer.script)
  holder := none
  savers := oneCanceled.set 0 ⟨.ofKey offerKey, laterOffer, .done (.ok true)⟩

theorem steps_afterSaves : Relation.ReflTransGen Step ⟨offered, none, []⟩ afterSaves := by
  have hcalled : Relation.ReflTransGen Step ⟨offered, none, []⟩ ⟨offered, none, bothCalled⟩ :=
    .head (.call _ _ _) (.single (.call _ _ _))
  have hcanceled : Relation.ReflTransGen Step ⟨offered, none, bothCalled⟩
      ⟨offered, none, oneCanceled⟩ :=
    .head (step_lock (i := 1) rfl) (.head (step_at (by decide) (.canceled true))
      (.single (step_at (by decide) .release)))
  have hyields : yields ⟨.testnet, true⟩ (offered (Address.ofKey offerKey).bytes)
      laterOffer.timestamp = true := by
    have hfiled : offered (Address.ofKey offerKey).bytes =
        some (offerFiling 5 (by decide)).script := Function.update_self _ _ _
    rw [hfiled, yields_iff, timestamp?_script]
    rintro u ⟨⟩
    decide
  exact hcalled.trans (hcanceled.trans (steps_saved (i := 0) rfl hyields))

/-- The later offer is filed, and what was filed is the latest of what counts. -/
theorem latest_afterSaves :
    Relation.ReflTransGen Step ⟨offered, none, []⟩ afterSaves ∧
      (∀ c ∈ afterSaves.savers, c.Ended) ∧
      afterSaves.timestamp? (.ofKey offerKey) = some 10 ∧
      IsLatest {t | timestamp? ⟨.testnet, true⟩ (offered (Address.ofKey offerKey).bytes) = some t ∨
        ∃ c ∈ afterSaves.savers, c.address = .ofKey offerKey ∧ c.Saved ∧ c.filing.timestamp = t}
        (afterSaves.timestamp? (.ofKey offerKey)) := by
  have hended : ∀ c ∈ afterSaves.savers, c.Ended := by
    simp [afterSaves, oneCanceled, bothCalled, Saver.Ended]
  refine ⟨steps_afterSaves, hended, ?_,
    (concurrent_saves_never_regress steps_afterSaves (.ofKey offerKey)).2 hended⟩
  have hfiled : afterSaves.scripts (Address.ofKey offerKey).bytes = some laterOffer.script :=
    Function.update_self _ _ _
  rw [System.timestamp?, hfiled, timestamp?_script]
  rfl

end Concurrent

end Attestor.Formations
