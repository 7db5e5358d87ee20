import Attestor.Oracle.Basic
import Attestor.Proofs.Store

/-! Requests at work on a store. The store answers its own questions; whatever else is asked may
be answered in any way, and a request may be given up while it waits for an answer. What must
hold after a request is found by going through its questions in order, with one rule for each. -/

namespace Attestor

/-- The errors that blame what is stored: an entity that cannot be read any more, or a key set
that gives no address. -/
def Error.blamesStore : Error → Bool
  | malformed .storedEntity _ => true
  | key (.requiredSigners _ _) | key .emptyKeySet | key (.wrongLength .keyList _) => true
  | _ => false

theorem Error.blamesStore_of_isNotFound {e : Error} (h : e.isNotFound = true) :
    e.blamesStore = false := by
  cases e with
  | notFound record name => rfl
  | _ => cases h

namespace Oracle

variable {α β : Type} {E : Error → Prop} {s s' : Store}

/-- What may be answered: by the store as it is, by the others anything but errors outside
`E`. -/
def Answered (E : Error → Prop) : (q : Question) → Store → q.Answer → Store → Prop
  | .store q, s, a, s' => Store.answer q s = (a, s')
  | .approve _, s, a, s' | .signingBlock, s, a, s' | .formation _, s, a, s' =>
    s' = s ∧ ∀ e, a = .error e → E e
  | .canceled, s, _, s' | .now, s, _, s' | .freshId, s, _, s' => s' = s

/-- The results a dialogue can have, none if it stops, and the stores it can leave. -/
inductive Serves (E : Error → Prop) :
    Dialogue Question Question.Answer α → Store → Option α → Store → Prop
  | done (a : α) (s : Store) : Serves E (.done a) s (some a) s
  | halt (s : Store) : Serves E .halt s none s
  | abandon (q : Question) (next : q.Answer → Dialogue Question Question.Answer α) (s : Store) :
    Serves E (.ask q next) s none s
  | ask {q : Question} {next : q.Answer → Dialogue Question Question.Answer α} {s s₁ s' : Store}
    {a : q.Answer} {r : Option α} (ha : Answered E q s a s₁) (h : Serves E (next a) s₁ r s') :
    Serves E (.ask q next) s r s'

theorem serves_answered {q : Question} {a : q.Answer} (ha : Answered E q s a s') :
    Serves E (ask q) s (some a) s' :=
  .ask ha (.done a s')

theorem serves_bind {d : Dialogue Question Question.Answer α}
    {f : α → Dialogue Question Question.Answer β} {r : Option β} (h : Serves E (d.bind f) s r s') :
    (r = none ∧ Serves E d s none s') ∨
      ∃ a s₁, Serves E d s (some a) s₁ ∧ Serves E (f a) s₁ r s' := by
  induction d generalizing s with
  | done a => exact .inr ⟨a, s, .done a s, h⟩
  | halt =>
    cases h
    exact .inl ⟨rfl, .halt s'⟩
  | ask q next ih =>
    cases h with
    | abandon => exact .inl ⟨rfl, .abandon q next s'⟩
    | ask ha h =>
      rcases ih _ h with ⟨rfl, hd⟩ | ⟨b, s₁, hb, hf⟩
      · exact .inl ⟨rfl, .ask ha hd⟩
      · exact .inr ⟨b, s₁, .ask ha hb, hf⟩

/-- An action that is served, and then what follows on its result. -/
theorem serves_andThen {x : Action α} {f : α → Action β} {a : α} {s₁ : Store}
    {r : Option (Except Error β)} (hx : Serves E x.run s (some (.ok a)) s₁)
    (hf : Serves E (f a).run s₁ r s') : Serves E (x >>= f).run s r s' := by
  have hbind : ∀ (d : Dialogue Question Question.Answer (Except Error α)) (s : Store),
      Serves E d s (some (.ok a)) s₁ → Serves E (d.bind (ExceptT.bindCont f)) s r s' := by
    intro d
    induction d with
    | done b =>
      intro s hd
      cases hd
      exact hf
    | halt => exact nofun
    | ask q next ih =>
      intro s hd
      cases hd with
      | ask ha hd => exact .ask ha (ih _ _ hd)
  exact hbind x.run s hx

theorem serves_guarded {operation : Operation} {r : Option (Except Error α)}
    {call : Dialogue Question Question.Answer (Except Error α)} (h : Serves E call s r s') :
    Serves E (guarded (ask .canceled) operation call).run s r s' := by
  refine .ask (a := false) rfl ?_
  exact h

/-- What holds of a result: `ok` if all went well, `fail` of an error or of no result. -/
def Meets (fail : Option Error → Store → Prop) (ok : α → Store → Prop) :
    Option (Except Error α) → Store → Prop
  | none => fail none
  | some (.error e) => fail (some e)
  | some (.ok a) => ok a

/-- However a request goes, what it leaves is right. -/
def Ensures (E : Error → Prop) (x : Action α) (s : Store) (fail : Option Error → Store → Prop)
    (ok : α → Store → Prop) : Prop :=
  ∀ r s', Serves E x.run s r s' → Meets fail ok r s'

variable {fail : Option Error → Store → Prop}

namespace Ensures

theorem pure {ok : α → Store → Prop} {a : α} (h : ok a s) : Ensures E (pure a) s fail ok := by
  intro r s' hr
  cases hr
  exact h

theorem throw {ok : α → Store → Prop} {e : Error} (h : fail (some e) s) :
    Ensures E (throw e) s fail ok := by
  intro r s' hr
  cases hr
  exact h

theorem bind {x : Action α} {f : α → Action β} {ok : β → Store → Prop}
    (h : Ensures E x s fail fun a s₁ => Ensures E (f a) s₁ fail ok) :
    Ensures E (x >>= f) s fail ok := by
  intro r s' hr
  rcases serves_bind hr with ⟨rfl, hx⟩ | ⟨e | a, s₁, hx, hf⟩
  · exact h none s' hx
  · cases hf
    exact h _ _ hx
  · exact h _ _ hx r s' hf

theorem mono {x : Action α} {fail' : Option Error → Store → Prop} {ok ok' : α → Store → Prop}
    (h : Ensures E x s fail ok) (hfail : ∀ e s', fail e s' → fail' e s')
    (hok : ∀ a s', ok a s' → ok' a s') : Ensures E x s fail' ok' := fun r s' hr =>
  match r with
  | none => hfail _ s' (h none s' hr)
  | some (.error _) => hfail _ s' (h _ s' hr)
  | some (.ok _) => hok _ s' (h _ s' hr)

theorem map {x : Action α} {f : α → β} {ok : β → Store → Prop}
    (h : Ensures E x s fail fun a => ok (f a)) :
    Ensures E (do return f (← x)) s fail ok :=
  bind fun r s' hr => match r with
    | none => h none s' hr
    | some (.error _) => h _ s' hr
    | some (.ok _) => Ensures.pure (h _ s' hr)

end Ensures

/-- `fail` puts up with requests that are given up, and with every error but those that blame
the store and that no one else answered. -/
structure Tolerant (E : Error → Prop) (fail : Option Error → Store → Prop) (s : Store) : Prop where
  none : fail none s
  some : ∀ e, (e.blamesStore = true → E e) → fail (some e) s

section Questions

variable (hfail : Tolerant E fail s)
include hfail

theorem ensures_question (q : Question) (x : q.Answer → Except Error α) {ok : α → Store → Prop}
    (h : ∀ a s₁, Answered E q s a s₁ → Meets fail ok (some (x a)) s₁) :
    Ensures E (.mk (.ask q fun a => .done (x a))) s fail ok := by
  intro r s' hr
  cases hr with
  | abandon => exact hfail.none
  | ask ha hr =>
    cases hr
    exact h _ _ ha

/-- What comes of a result that leaves the store as it is. -/
theorem meets_of_result {res : Except Error α} {ok : α → Store → Prop}
    (herror : ∀ e, res = .error e → e.blamesStore = true → E e)
    (hok : ∀ a, res = .ok a → ok a s) : Meets fail ok (some res) s := by
  cases res with
  | error e => exact hfail.some e (herror e rfl)
  | ok a => exact hok a rfl

theorem meets_of_found {res : Except Error α} {ok : α → Store → Prop}
    (herror : ∀ e, res = .error e → e.isNotFound = true) (hok : ∀ a, res = .ok a → ok a s) :
    Meets fail ok (some res) s :=
  meets_of_result hfail (fun e he hblame => absurd hblame
    (by rw [Error.blamesStore_of_isNotFound (herror e he)]; decide)) hok

/-- What comes of a change, which is made as a whole or not at all. -/
theorem meets_of_changed {res : Except Error Store} {ok : Unit → Store → Prop}
    {a : Except Error Unit} {s₁ : Store} (ha : s.changed res = (a, s₁))
    (herror : ∀ e, res = .error e → e.blamesStore = false) (hok : ∀ s', res = .ok s' → ok () s') :
    Meets fail ok (some a) s₁ := by
  cases res with
  | error e =>
    cases ha
    exact hfail.some e fun hblame => absurd hblame (by rw [herror e rfl]; decide)
  | ok =>
    cases ha
    exact hok _ rfl

theorem ensures_guarded {operation : Operation} {ok : α → Store → Prop}
    {call : Dialogue Question Question.Answer (Except Error α)}
    (h : Ensures E (.mk call) s fail ok) :
    Ensures E (guarded (ask .canceled) operation call) s fail ok := by
  intro r s' hr
  cases hr with
  | abandon => exact hfail.none
  | @ask _ _ _ _ _ canceled _ ha hr =>
    cases ha
    cases canceled
    · exact h r s' hr
    · cases hr
      exact hfail.some _ nofun

theorem ensures_findUser {id : UserId} {ok : User → Store → Prop}
    (hok : ∀ u, s.live? id = some u → ok u s) : Ensures E (findUser id) s fail ok := by
  refine ensures_guarded hfail (ensures_question hfail (.store (.findUser id)) (fun a => a)
    fun a s₁ ha => ?_)
  cases ha
  exact meets_of_found hfail (fun e => Store.isNotFound_of_findUser)
    fun u hu => hok u (Store.findUser_eq_ok.1 hu)

theorem ensures_findOwner {keys : KeySet} {ok : User → Store → Prop}
    (hok : ∀ u f, s.filed? keys = some f → s.live? f.user = some u → ok u s) :
    Ensures E (findOwner keys) s fail ok := by
  refine ensures_guarded hfail (ensures_question hfail (.store (.findOwner keys)) (fun a => a)
    fun a s₁ ha => ?_)
  cases ha
  refine meets_of_found hfail (fun e => Store.isNotFound_of_findOwner) fun u hu => ?_
  obtain ⟨f, hf, hlive⟩ := Store.findOwner_eq_ok.1 hu
  exact hok u f hf hlive

theorem ensures_findKeys {keys : KeySet} {ok : FiledKeys → Store → Prop}
    (hok : ∀ f, s.filed? keys = some f → ok f s) : Ensures E (findKeys keys) s fail ok := by
  refine ensures_guarded hfail (ensures_question hfail (.store (.findKeys keys)) (fun a => a)
    fun a s₁ ha => ?_)
  cases ha
  exact meets_of_found hfail (fun e => Store.isNotFound_of_findKeys)
    fun f hf => hok f (Store.findKeys_eq_ok.1 hf).1

theorem ensures_createUser {u : User} {ok : Unit → Store → Prop} (hok : ok () (s.createUser u)) :
    Ensures E (createUser u) s fail ok := by
  refine ensures_guarded hfail (ensures_question hfail (.store (.createUser u)) (fun a => a)
    fun a s₁ ha => ?_)
  cases ha
  exact hok

theorem ensures_updateUser {u : User} {ok : Unit → Store → Prop}
    (hok : ∀ v, s.live? u.id = some v →
      ok () (s.createUser { v with entity := u.entity, modified := u.modified })) :
    Ensures E (updateUser u) s fail ok := by
  refine ensures_guarded hfail (ensures_question hfail (.store (.updateUser u)) (fun a => a)
    fun a s₁ ha => meets_of_changed hfail ha (fun e he => ?_) fun s₂ hs => ?_)
  · exact Error.blamesStore_of_isNotFound (Store.isNotFound_of_updateUser he)
  · obtain ⟨v, hv, rfl⟩ := Store.updateUser_eq_ok hs
    exact hok v hv

theorem ensures_fileKeys {f : FiledKeys} {ok : Unit → Store → Prop}
    (hok : s.filed? f.keys = none → ok () { s with filed := s.filed ++ [f] }) :
    Ensures E (fileKeys f) s fail ok := by
  refine ensures_guarded hfail (ensures_question hfail (.store (.fileKeys f)) (fun a => a)
    fun a s₁ ha => meets_of_changed hfail ha (fun e he => ?_) fun s₂ hs => ?_)
  · rw [Store.fileKeys_eq_error he]
    rfl
  · obtain ⟨hf, rfl⟩ := Store.fileKeys_eq_ok hs
    exact hok hf

theorem ensures_approval {operation : Operation} {h : Hook} {ok : Approval → Store → Prop}
    (hok : ∀ a, ok a s) : Ensures E (approval operation h) s fail ok := by
  refine ensures_guarded hfail (ensures_question hfail (.approve h) (fun a => a)
    fun a s₁ ⟨hs, ha⟩ => ?_)
  cases hs
  exact meets_of_result hfail (fun e he _ => ha e he) fun a _ => hok a

theorem ensures_signingBlock {ok : Digest × UInt32 → Store → Prop} (hok : ∀ b, ok b s) :
    Ensures E signingBlock s fail ok := by
  refine ensures_guarded hfail (ensures_question hfail .signingBlock (fun a => a)
    fun a s₁ ⟨hs, ha⟩ => ?_)
  cases hs
  exact meets_of_result hfail (fun e he _ => ha e he) fun b _ => hok b

theorem ensures_formation {address : Address} {ok : Formation → Store → Prop}
    (hok : ∀ f, ok f s) : Ensures E (formation address) s fail ok := by
  refine ensures_question hfail (.formation address) (fun a => a) fun a s₁ ⟨hs, ha⟩ => ?_
  cases hs
  exact meets_of_result hfail (fun e he _ => ha e he) fun f _ => hok f

/-- A question that may be answered in any way, and not by the store. -/
theorem ensures_ask (q : Question) (hq : Answered E q s = fun _ s' => s' = s)
    {ok : q.Answer → Store → Prop} (hok : ∀ a, ok a s) :
    Ensures E (liftM (ask q)) s fail ok := by
  refine ensures_question hfail q .ok fun a s₁ ha => ?_
  rw [hq] at ha
  obtain rfl : s₁ = s := ha
  exact hok a

theorem ensures_expiry {asked : Option UInt64} {seconds : UInt64} {ok : UInt64 → Store → Prop}
    (hok : ∀ t, ok t s) : Ensures E (expiry asked seconds) s fail ok := by
  cases asked with
  | some t => exact .pure (hok t)
  | none => exact .map (ensures_ask hfail .now rfl fun t => hok _)

end Questions

theorem ensures_ofKey {res : Except Key.Error α} {ok : α → Store → Prop}
    (herror : ∀ e, res = .error e → fail (some (.key e)) s) (hok : ∀ a, res = .ok a → ok a s) :
    Ensures E (ofKey res) s fail ok := by
  cases res with
  | error e => exact .throw (herror e rfl)
  | ok a => exact .pure (hok a rfl)

end Oracle

end Attestor
