import Attestor.Proofs.Curve
import Attestor.Proofs.Formations.Latest
import Attestor.Proofs.Tracker.Handle
import Attestor.Service

/-! Filing the formations of transactions in a storage that answers. Whatever was filed before,
an address ends up with the latest formation among those that it signed, no matter how many other
transactions and unreadable outputs come between them, and the order of the transactions decides
only between formations with the same timestamp. -/

namespace Attestor

open Service (Local Storage)

theorem Transaction.exists_key_of_signer? {t : Transaction} {a : Address}
    (h : t.signer? = some a) : ∃ key, a = .ofKey key := by
  simp only [signer?, Option.bind_eq_bind, Option.bind_eq_some_iff, Option.pure_def,
    Option.some.injEq] at h
  obtain ⟨-, -, -, -, key, -, rfl⟩ := h
  exact ⟨key, rfl⟩

/-- The bytes of a key's address are those of no other address. -/
theorem Address.eq_ofKey_of_bytes_eq {a : Address} {key : PublicKey}
    (h : a.bytes = (ofKey key).bytes) : a = ofKey key := by
  cases a <;> simp only [ofKey, bytes, List.cons.injEq] at h ⊢
  case keyHash hash => rw [Octets.ext h.2]
  all_goals exact absurd h.1 (by decide)

namespace Service.Local

/-- The storage answers, and nothing is canceled. -/
structure Steady (l : Local) : Prop where
  not_canceled : l.canceled = false
  failingReads : l.storage.failingReads = 0
  failingWrites : l.storage.failingWrites = 0

/-- The script that is filed under an address. -/
def record (l : Local) (a : Address) : Option Bytes := l.storage.scripts.lookup a.bytes

/-- The surroundings with one script filed. -/
def put (l : Local) (a : Address) (script : Bytes) : Local :=
  { l with storage := l.storage.put a.bytes script }

theorem record_put (l : Local) (a : Address) (script : Bytes) :
    (l.put a script).record a = some script :=
  List.lookup_cons_self

theorem record_put_of_ne {l : Local} {a b : Address} (h : b.bytes ≠ a.bytes) (script : Bytes) :
    (l.put a script).record b = l.record b := by
  have hbeq : (b.bytes == a.bytes) = false := beq_false_of_ne h
  simp only [record, put, Storage.put, List.lookup, hbeq]

theorem Steady.put {l : Local} (hl : l.Steady) (a : Address) (script : Bytes) :
    (l.put a script).Steady :=
  ⟨hl.not_canceled, hl.failingReads, hl.failingWrites⟩

/-- The answers that the filed formations get. -/
def filingAnswer : (q : Formations.Question) → StateM Local q.Answer
  | .canceled => answer .canceled
  | .acquire => answer .acquire
  | .release => answer .release
  | .read key => answer (.readScript key)
  | .write key script => answer (.writeScript key script)

end Service.Local

namespace Formations

variable {α β : Type} {s : Formations}

/-- Runs an action on the filed formations. -/
def exec (action : Action α) (l : Local) : Option (Except Error α) × Local :=
  Local.run (action.run.via Service.ofFormations) l

theorem exec_eq (action : Action α) (l : Local) :
    exec action l = action.run.run Local.filingAnswer l := by
  refine Dialogue.run_via (fun q l => ?_) _ _
  cases q <;> rfl

theorem exec_pure (a : α) (l : Local) : exec (pure a) l = (some (.ok a), l) := rfl

theorem exec_bind (p : Action α) (f : α → Action β) (l : Local) : exec (p >>= f) l =
    match exec p l with
    | (some (.ok a), l) => exec (f a) l
    | (some (.error e), l) => (some (.error e), l)
    | (none, l) => (none, l) := by
  simp only [exec_eq]
  refine (Dialogue.run_bind_except Local.filingAnswer p f l).trans ?_
  rcases p.run.run Local.filingAnswer l with ⟨_ | _ | a, l⟩ <;> rfl

theorem exec_bind_of_ok {p : Action α} {l l' : Local} {a : α}
    (h : exec p l = (some (.ok a), l')) (f : α → Action β) : exec (p >>= f) l = exec (f a) l' := by
  rw [exec_bind, h]

section Steps

variable {l : Local} (hl : l.Steady)
include hl

theorem exec_guarded (operation : Operation)
    (call : Dialogue Question Question.Answer (Except Error α)) :
    exec (guarded (ask .canceled) operation call) l = call.run Local.filingAnswer l := by
  have hc : Local.filingAnswer .canceled l = (false, l) := by
    rw [← hl.not_canceled]
    rfl
  have hask : exec (guarded (ask .canceled) operation call) l =
      (if (Local.filingAnswer .canceled l).1 then .done (.error (.canceled operation))
        else call : Dialogue _ _ _).run Local.filingAnswer (Local.filingAnswer .canceled l).2 :=
    exec_eq _ l
  rw [hask, hc]
  rfl

theorem exec_read (a : Address) : exec (read a.bytes) l = (some (.ok (l.record a)), l) := by
  have h : Storage.read a.bytes l.storage = (.ok (l.record a), l.storage) := by
    rw [Storage.read, hl.failingReads]
    rfl
  have hask : (ask (.read a.bytes)).run Local.filingAnswer l =
      (some (Storage.read a.bytes l.storage).1,
        { l with storage := (Storage.read a.bytes l.storage).2 }) := rfl
  rw [read, exec_guarded hl, hask, h]

theorem exec_write (a : Address) (script : Bytes) :
    exec (write a.bytes script) l = (some (.ok ()), l.put a script) := by
  have h : Storage.write a.bytes script l.storage = (.ok (), l.storage.put a.bytes script) := by
    rw [Storage.write, hl.failingWrites]
  have hask : (ask (.write a.bytes script)).run Local.filingAnswer l =
      (some (Storage.write a.bytes script l.storage).1,
        { l with storage := (Storage.write a.bytes script l.storage).2 }) := rfl
  rw [write, exec_guarded hl, hask, h]
  rfl

/-- What is read from a record. -/
def reading (s : Formations) (a : Address) : Option Bytes → Except Error Formation
  | none => .error (.notFound .formation (a.text s.network))
  | some script => (Formation.ofScript script s.isTest).mapError fun e =>
    .malformed .formation e.message

theorem exec_get (a : Address) :
    exec (s.get a) l = (some (s.reading a (l.record a)), l) := by
  rw [get, exec_bind_of_ok (exec_read hl a)]
  cases l.record a with
  | none => rfl
  | some script =>
    simp only [reading]
    cases Formation.ofScript script s.isTest <;> rfl

theorem exec_save (a : Address) (f : Formation) (script : Bytes) :
    exec (s.save a f script) l =
      (some (.ok (s.yields (l.record a) f.timestamp)),
        if s.yields (l.record a) f.timestamp then l.put a script else l) := by
  have hreplace : exec (s.replace a f script) l =
      (some (.ok (s.yields (l.record a) f.timestamp)),
        if s.yields (l.record a) f.timestamp then l.put a script else l) := by
    rw [replace, exec_bind_of_ok (exec_read hl a)]
    cases s.yields (l.record a) f.timestamp with
    | false => rfl
    | true => rw [if_pos rfl, if_pos rfl, exec_bind_of_ok (exec_write hl a script), exec_pure]
  have hsave : exec (s.save a f script) l =
      match exec (s.replace a f script) l with
      | (some r, l) => (some r, l)
      | (none, l) => (none, l) := by
    simp only [exec_eq]
    have h := Dialogue.run_bind Local.filingAnswer (s.replace a f script).run
      (fun r => (Dialogue.question Question.release).bind fun _ => .done r) l
    refine Eq.trans h ?_
    rcases (s.replace a f script).run.run Local.filingAnswer l with ⟨_ | r, l⟩ <;> rfl
  rw [hsave, hreplace]

end Steps

/-- The formations among outputs, in order. -/
def carried (s : Formations) (outputs : List Output) : List (Filing s) :=
  outputs.filterMap fun o => s.filing? o.script

/-- The formations that transactions carry for an address that signed them, in order. -/
def filings (s : Formations) (a : Address) (ts : List Transaction) : List (Filing s) :=
  (ts.filter fun t => t.signer? = some a).flatMap fun t => s.carried t.outputs

/-- The surroundings after a formation arrived for an address. -/
def arrive (s : Formations) (a : Address) (l : Local) (f : Filing s) : Local :=
  if s.yields (l.record a) f.timestamp then l.put a f.script else l

section Arrive

variable {a b : Address} {l : Local}

theorem steady_arrive (hl : l.Steady) (f : Filing s) : (s.arrive a l f).Steady := by
  unfold arrive
  split
  · exact hl.put a f.script
  · exact hl

theorem record_arrive (f : Filing s) :
    (s.arrive a l f).record a = s.settle (l.record a) f := by
  unfold arrive settle
  split
  · exact l.record_put a f.script
  · rfl

theorem record_arrive_of_ne (h : b.bytes ≠ a.bytes) (f : Filing s) :
    (s.arrive a l f).record b = l.record b := by
  unfold arrive
  split
  · exact Local.record_put_of_ne h f.script
  · rfl

theorem steady_foldl_arrive (hl : l.Steady) (fs : List (Filing s)) :
    (fs.foldl (s.arrive a) l).Steady := by
  induction fs generalizing l with
  | nil => exact hl
  | cons f fs ih => exact ih (steady_arrive hl f)

theorem record_foldl_arrive (fs : List (Filing s)) :
    (fs.foldl (s.arrive a) l).record a = fs.foldl s.settle (l.record a) := by
  induction fs generalizing l with
  | nil => rfl
  | cons f fs ih => rw [List.foldl_cons, ih, record_arrive, List.foldl_cons]

theorem record_foldl_arrive_of_ne (h : b.bytes ≠ a.bytes) (fs : List (Filing s)) :
    (fs.foldl (s.arrive a) l).record b = l.record b := by
  induction fs generalizing l with
  | nil => rfl
  | cons f fs ih => rw [List.foldl_cons, ih, record_arrive_of_ne h]

end Arrive

/-- Every formation among the outputs arrives, and nothing else does. -/
theorem exec_observeOutputs (a : Address) (outputs : List Output) (saved : ℕ) {l : Local}
    (hl : l.Steady) : ∃ n, exec (.mk (s.observeOutputs a saved outputs)) l =
      (some (.ok n), (s.carried outputs).foldl (s.arrive a) l) := by
  induction outputs generalizing saved l with
  | nil => exact ⟨saved, rfl⟩
  | cons o rest ih =>
    cases hf : Formation.ofScript o.script s.isTest with
    | error e =>
      have hskip : s.observeOutputs a saved (o :: rest) = s.observeOutputs a saved rest := by
        rw [observeOutputs, hf]
      have hcarried : s.carried (o :: rest) = s.carried rest :=
        List.filterMap_cons_none (filing?_of_error hf)
      rw [hskip, hcarried]
      exact ih saved hl
    | ok f =>
      have hcarried : s.carried (o :: rest) = ⟨o.script, f, hf⟩ :: s.carried rest :=
        List.filterMap_cons_some (filing?_of_ok hf)
      obtain ⟨saved', hstep⟩ : ∃ saved', exec (.mk (s.observeOutputs a saved (o :: rest))) l =
          exec (.mk (s.observeOutputs a saved' rest)) (s.arrive a l ⟨o.script, f, hf⟩) := by
        have hsave : (s.save a f o.script).run.run Local.filingAnswer l =
            (some (.ok (s.yields (l.record a) f.timestamp)), s.arrive a l ⟨o.script, f, hf⟩) :=
          (exec_eq _ l).symm.trans (exec_save hl a f o.script)
        simp only [exec_eq, ExceptT.run_mk]
        rw [observeOutputs, hf]
        change ∃ saved', Dialogue.run _ (Dialogue.bind (s.save a f o.script).run _) l = _
        simp only [Dialogue.run_bind, hsave]
        cases s.yields (l.record a) f.timestamp with
        | false => exact ⟨saved, rfl⟩
        | true => exact ⟨saved + 1, rfl⟩
      rw [hstep, hcarried, List.foldl_cons]
      exact ih saved' (steady_arrive hl _)

theorem filings_cons (a : Address) (t : Transaction) (ts : List Transaction) :
    s.filings a (t :: ts) = s.filings a [t] ++ s.filings a ts := by
  rw [← List.singleton_append, filings, List.filter_append, List.flatMap_append]
  rfl

theorem exec_observe (t : Transaction) {l : Local} (hl : l.Steady) :
    ∃ n l', exec (s.observe t) l = (some (.ok n), l') ∧ l'.Steady ∧
      ∀ b, l'.record b = (s.filings b [t]).foldl s.settle (l.record b) := by
  cases ht : t.signer? with
  | none =>
    refine ⟨0, l, by rw [observe, ht]; rfl, hl, fun b => ?_⟩
    have hnone : s.filings b [t] = [] := by simp [filings, ht]
    rw [hnone, List.foldl_nil]
  | some a =>
    obtain ⟨n, hn⟩ := exec_observeOutputs (s := s) a t.outputs 0 hl
    refine ⟨n, _, by rw [observe, ht]; exact hn, steady_foldl_arrive hl _, fun b => ?_⟩
    by_cases hb : b = a
    · subst hb
      have hall : s.filings b [t] = s.carried t.outputs := by simp [filings, ht]
      rw [hall, record_foldl_arrive]
    · have hnone : s.filings b [t] = [] := by simp [filings, ht, Ne.symm hb]
      obtain ⟨key, rfl⟩ := Transaction.exists_key_of_signer? ht
      rw [hnone, List.foldl_nil,
        record_foldl_arrive_of_ne fun h => hb (Address.eq_ofKey_of_bytes_eq h)]

/-- Transactions that follow one another, whatever else they carry and whoever signed them. -/
theorem exec_mapM_observe (ts : List Transaction) {l : Local} (hl : l.Steady) :
    ∃ ns l', exec (ts.mapM s.observe) l = (some (.ok ns), l') ∧ l'.Steady ∧
      ∀ b, l'.record b = (s.filings b ts).foldl s.settle (l.record b) := by
  induction ts generalizing l with
  | nil => exact ⟨[], l, by rw [List.mapM_nil]; rfl, hl, fun b => rfl⟩
  | cons t ts ih =>
    obtain ⟨n, l₁, hobserve, hl₁, hrecord⟩ := exec_observe t hl
    obtain ⟨ns, l₂, hrest, hl₂, hrecords⟩ := ih hl₁
    refine ⟨n :: ns, l₂, ?_, hl₂, fun b => ?_⟩
    · rw [List.mapM_cons, exec_bind_of_ok hobserve, exec_bind_of_ok hrest, exec_pure]
    · rw [hrecords, hrecord, filings_cons b t ts, List.foldl_append]

theorem filings_perm (a : Address) {ts us : List Transaction} (h : us.Perm ts) :
    (s.filings a us).Perm (s.filings a ts) :=
  (h.filter _).flatMap_right _

/-- What has become of the record of an address, whatever other transactions there were. -/
structure KeepsLatest (s : Formations) (a : Address) (ts : List Transaction) (l l' : Local) :
    Prop where
  latest : ∀ c, Latest (s.candidates (l.record a) (s.filings a ts)) c →
    l'.record a = some c.script ∧ exec (s.get a) l' = (some (.ok c.formation), l')
  exists_latest : s.candidates (l.record a) (s.filings a ts) ≠ [] →
    ∃ c, Latest (s.candidates (l.record a) (s.filings a ts)) c
  untouched : s.filings a ts = [] → l'.record a = l.record a

theorem keepsLatest_of_record {a : Address} {ts : List Transaction} {l l' : Local}
    (hl' : l'.Steady) (h : l'.record a = (s.filings a ts).foldl s.settle (l.record a)) :
    KeepsLatest s a ts l l' where
  latest c hc := by
    have hrecord := h.trans (foldl_settle_of_latest hc)
    refine ⟨hrecord, ?_⟩
    rw [exec_get hl', hrecord, reading, c.ofScript_eq]
    rfl
  exists_latest hne := by
    obtain ⟨hnil, -⟩ | ⟨c, hc, -⟩ := settled_cases (l.record a) (s.filings a ts)
    · exact absurd hnil hne
    · exact ⟨c, hc⟩
  untouched hnil := by rw [h, hnil, List.foldl_nil]

/-- Every transaction is taken, and afterwards the latest formation of each address is filed.
Another history leaves the same record if it carries the same formations for the address, the
same timestamp if it has the same transactions in another order, and then also the same record if
only one script has the greatest timestamp. -/
theorem observe_keeps_latest {l : Local} (hl : l.Steady) (ts us : List Transaction) :
    ∃ ns l₁ ms l₂, exec (ts.mapM s.observe) l = (some (.ok ns), l₁) ∧
      exec (us.mapM s.observe) l = (some (.ok ms), l₂) ∧ ∀ a, KeepsLatest s a ts l l₁ ∧
        (s.filings a us = s.filings a ts → l₂.record a = l₁.record a) ∧
        (us.Perm ts →
          (exec (s.get a) l₂).1.map (Except.map Formation.timestamp) =
              (exec (s.get a) l₁).1.map (Except.map Formation.timestamp) ∧
            ((∀ c d, Newest (s.candidates (l.record a) (s.filings a ts)) c →
                Newest (s.candidates (l.record a) (s.filings a ts)) d → c.script = d.script) →
              l₂.record a = l₁.record a)) := by
  obtain ⟨ns, l₁, h₁, hl₁, hr₁⟩ := exec_mapM_observe (s := s) ts hl
  obtain ⟨ms, l₂, h₂, hl₂, hr₂⟩ := exec_mapM_observe (s := s) us hl
  refine ⟨ns, l₁, ms, l₂, h₁, h₂, fun a => ?_⟩
  have hk₁ := keepsLatest_of_record hl₁ (hr₁ a)
  have hk₂ := keepsLatest_of_record hl₂ (hr₂ a)
  refine ⟨hk₁, fun hsame => by rw [hr₂, hr₁, hsame], fun hperm => ?_⟩
  have hfilings := filings_perm (s := s) a hperm
  have hcandidates : (s.candidates (l.record a) (s.filings a us)).Perm
      (s.candidates (l.record a) (s.filings a ts)) := hfilings.append_left _
  by_cases hnil : s.candidates (l.record a) (s.filings a ts) = []
  · -- nothing competes, and the record is as it was
    have hts : s.filings a ts = [] := (List.append_eq_nil_iff.1 hnil).2
    have hus : s.filings a us = [] := by
      rw [hts] at hfilings
      exact hfilings.eq_nil
    have hsame : l₂.record a = l₁.record a := (hk₂.untouched hus).trans (hk₁.untouched hts).symm
    refine ⟨?_, fun _ => hsame⟩
    rw [exec_get hl₁, exec_get hl₂, hsame]
  · obtain ⟨c, hc⟩ := hk₁.exists_latest hnil
    obtain ⟨d, hd⟩ := hk₂.exists_latest fun h => hnil (h ▸ hcandidates).nil_eq.symm
    have hdnewest := hd.newest.perm hcandidates
    obtain ⟨hrecord₁, hget₁⟩ := hk₁.latest c hc
    obtain ⟨hrecord₂, hget₂⟩ := hk₂.latest d hd
    refine ⟨?_, fun hsole => ?_⟩
    · rw [hget₁, hget₂]
      exact congrArg (fun t => some (Except.ok t)) (hdnewest.timestamp_eq hc.newest)
    · rw [hrecord₁, hrecord₂, hsole c d hc.newest hdnewest]

/-! ### Offers in two orders -/

/-- The key that signs the offers. -/
def offerKey : PublicKey := Curve.Point.generator

def offer (timestamp : UInt64) : Formation := ⟨"Bond", "", none, 0, timestamp⟩

def offerScript (timestamp : UInt64) : Bytes :=
  ((offer timestamp).toScript true).toOption.getD []

/-- A signature and the key in front, then an output that pays and the offers. -/
def offering (timestamps : List UInt64) : Transaction where
  version := 1
  inputs := [⟨Digest.zero, 0, [0x01, 0x30, 0x21] ++ (PublicKey.bytes offerKey).toList, 0, []⟩]
  outputs := ⟨0, [0x76, 0xa9]⟩ :: timestamps.map fun n => ⟨0, offerScript n⟩
  lockTime := 0

/-- Surroundings in which nothing readable is filed for the key. -/
def beforeOffers : Local where
  node := ⟨[], [], false⟩
  tracker := .new 1
  storage := ⟨[((Address.ofKey offerKey).bytes, [0x6a])], 0, 0, .timeout⟩
  store := .empty
  reachable := true
  verdict := .decide .granted
  asked := []
  canceled := false
  now := ⟨0⟩
  issued := 0

theorem signer_offering (timestamps : List UInt64) :
    (offering timestamps).signer? = some (.ofKey offerKey) := by
  have hkey : PublicKey.ofBytes? (PublicKey.bytes offerKey).toList = some offerKey := by
    decide +kernel
  have hpushes : Script.pushes (0x01 :: 0x30 :: 0x21 :: (PublicKey.bytes offerKey).toList) =
      some [[0x30], (PublicKey.bytes offerKey).toList] := by decide +kernel
  simp only [Transaction.signer?, Transaction.keyBytes?, offering, List.head?_cons,
    List.cons_append, List.nil_append, List.isEmpty_cons, Bool.false_eq_true, if_false, hpushes,
    Option.bind_eq_bind, Option.bind_some, hkey, Option.pure_def]

theorem ofScript_offerScript {n : UInt64} (h : n = 5 ∨ n = 7 ∨ n = 10) :
    Formation.ofScript (offerScript n) true = .ok (offer n) := by
  obtain rfl | rfl | rfl := h
  all_goals decide +kernel

theorem ofScript_unreadable : Formation.ofScript [0x76, 0xa9] true = .error .notAction ∧
    Formation.ofScript [0x6a] true = .error .notAction := by
  decide +kernel

/-- An offer as a filing. -/
def offerFiling (n : UInt64) (h : n = 5 ∨ n = 7 ∨ n = 10) : Filing ⟨.testnet, true⟩ :=
  ⟨offerScript n, offer n, ofScript_offerScript h⟩

theorem filings_offering : filings ⟨.testnet, true⟩ (.ofKey offerKey)
      [offering [10, 5], offering [7]] =
    [offerFiling 10 (by decide), offerFiling 5 (by decide), offerFiling 7 (by decide)] := by
  have hpay : filing? ⟨.testnet, true⟩ [0x76, 0xa9] = none :=
    filing?_of_error ofScript_unreadable.1
  have hoffer : ∀ n (hn : n = 5 ∨ n = 7 ∨ n = 10),
      filing? ⟨.testnet, true⟩ (offerScript n) = some (offerFiling n hn) :=
    fun n hn => filing?_of_ok (ofScript_offerScript hn)
  have h₁ : carried ⟨.testnet, true⟩ (offering [10, 5]).outputs =
      [offerFiling 10 (by decide), offerFiling 5 (by decide)] := by
    simp only [carried, offering, List.map_cons, List.map_nil, List.filterMap_cons, hpay,
      hoffer 10 (by decide), hoffer 5 (by decide), List.filterMap_nil]
  have h₂ : carried ⟨.testnet, true⟩ (offering [7]).outputs = [offerFiling 7 (by decide)] := by
    simp only [carried, offering, List.map_cons, List.map_nil, List.filterMap_cons, hpay,
      hoffer 7 (by decide), List.filterMap_nil]
  simp only [filings, signer_offering, decide_true, List.filter_cons_of_pos, List.filter_nil,
    List.flatMap_cons, List.flatMap_nil, h₁, h₂, List.append_nil, List.cons_append,
    List.nil_append]

theorem candidates_offering : candidates ⟨.testnet, true⟩ (beforeOffers.record (.ofKey offerKey))
      (filings ⟨.testnet, true⟩ (.ofKey offerKey) [offering [10, 5], offering [7]]) =
    [offerFiling 10 (by decide), offerFiling 5 (by decide), offerFiling 7 (by decide)] := by
  have hrecord : beforeOffers.record (.ofKey offerKey) = some [0x6a] := by
    simp only [Local.record, beforeOffers, List.lookup_cons_self]
  have hjunk : filing? ⟨.testnet, true⟩ [0x6a] = none := filing?_of_error ofScript_unreadable.2
  simp only [candidates, hrecord, Option.bind_some, hjunk, Option.toList_none, List.nil_append,
    filings_offering]

/-- The latest of three offers in two transactions is filed, in either order of the two. -/
theorem get_after_offers : beforeOffers.Steady ∧ ∃ ns l₁ ms l₂,
    exec ([offering [10, 5], offering [7]].mapM (observe ⟨.testnet, true⟩)) beforeOffers =
      (some (.ok ns), l₁) ∧
    exec ([offering [7], offering [10, 5]].mapM (observe ⟨.testnet, true⟩)) beforeOffers =
      (some (.ok ms), l₂) ∧
    exec (get ⟨.testnet, true⟩ (.ofKey offerKey)) l₁ = (some (.ok (offer 10)), l₁) ∧
    l₂.record (.ofKey offerKey) = l₁.record (.ofKey offerKey) := by
  have hsteady : beforeOffers.Steady := ⟨rfl, rfl, rfl⟩
  obtain ⟨ns, l₁, ms, l₂, h₁, h₂, h⟩ := observe_keeps_latest (s := ⟨.testnet, true⟩) hsteady
    [offering [10, 5], offering [7]] [offering [7], offering [10, 5]]
  obtain ⟨hkept, -, hperm⟩ := h (.ofKey offerKey)
  rw [candidates_offering] at hperm
  have hlatest : Latest (candidates ⟨.testnet, true⟩ (beforeOffers.record (.ofKey offerKey))
      (filings ⟨.testnet, true⟩ (.ofKey offerKey) [offering [10, 5], offering [7]]))
      (offerFiling 10 (by decide)) :=
    ⟨[], _, candidates_offering, by simp, by simp [Filing.timestamp, offerFiling, offer]⟩
  have hswap : [offering [7], offering [10, 5]].Perm [offering [10, 5], offering [7]] :=
    .swap _ _ _
  have hget := (hkept.latest _ hlatest).2
  refine ⟨hsteady, ns, l₁, ms, l₂, h₁, h₂, hget, (hperm hswap).2 fun c d hc hd => ?_⟩
  have hten : ∀ c, Newest [offerFiling 10 (by decide), offerFiling 5 (by decide),
      offerFiling 7 (by decide)] c → c = offerFiling 10 (by decide) := by
    rintro c ⟨hmem, hle⟩
    simp only [List.mem_cons, List.not_mem_nil, or_false] at hmem
    obtain rfl | rfl | rfl := hmem
    · rfl
    all_goals exact absurd (hle (offerFiling 10 (by decide)) (by simp)) (by decide)
  rw [hten c hc, hten d hd]

end Formations

end Attestor
