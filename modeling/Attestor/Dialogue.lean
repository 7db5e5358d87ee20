import Attestor.Json.Value

/-! Programs that ask questions, and those that ask by sending messages. A dialogue is done, or
stops because a height left the range of 32 bits, or asks a question and goes on with the answer.
Who answers is left open: a run answers one question after another from a state, and since every
question is a step of its own, the steps of several dialogues can also be taken in any order. -/

namespace Attestor

inductive Dialogue (Q : Type) (R : Q → Type) (α : Type) where
  | done (a : α)
  | halt
  | ask (q : Q) (next : R q → Dialogue Q R α)

namespace Dialogue

variable {Q Q' : Type} {R : Q → Type} {R' : Q' → Type} {α β ε σ : Type}

/-- Goes on with the result. -/
def bind : Dialogue Q R α → (α → Dialogue Q R β) → Dialogue Q R β
  | done a, f => f a
  | halt, _ => halt
  | ask q next, f => ask q fun r => (next r).bind f

instance : Monad (Dialogue Q R) where
  pure := done
  bind := bind

/-- A single question. -/
def question (q : Q) : Dialogue Q R (R q) := ask q done

/-- Puts every question in the words of another dialogue. -/
def via (f : (q : Q) → Dialogue Q' R' (R q)) : Dialogue Q R α → Dialogue Q' R' α
  | done a => done a
  | halt => halt
  | ask q next => (f q).bind fun r => (next r).via f

/-- The result of a computation that may overflow. -/
def ofExcept : Except ε α → Dialogue Q R α
  | .ok a => done a
  | .error _ => halt

/-- Answers the questions in order, keeping a state; none if the dialogue stops. -/
def run (answer : (q : Q) → StateM σ (R q)) : Dialogue Q R α → StateM σ (Option α)
  | done a, s => (some a, s)
  | halt, s => (none, s)
  | ask q next, s =>
    let (r, s) := answer q s
    (next r).run answer s

theorem bind_done (d : Dialogue Q R α) : d.bind done = d := by
  induction d with
  | done a => rfl
  | halt => rfl
  | ask q next ih => simp only [bind, ih]

theorem bind_bind {γ : Type} (d : Dialogue Q R α) (f : α → Dialogue Q R β)
    (g : β → Dialogue Q R γ) : (d.bind f).bind g = d.bind fun a => (f a).bind g := by
  induction d with
  | done a => rfl
  | halt => rfl
  | ask q next ih => simp only [bind, ih]

instance : LawfulMonad (Dialogue Q R) :=
  LawfulMonad.mk' (Dialogue Q R) bind_done (fun _ _ => rfl) bind_bind

/-- A run of two dialogues in a row is a run of the first, then of the second. -/
theorem run_bind (answer : (q : Q) → StateM σ (R q)) (d : Dialogue Q R α)
    (f : α → Dialogue Q R β) (s : σ) :
    (d.bind f).run answer s =
      match d.run answer s with
      | (some a, s) => (f a).run answer s
      | (none, s) => (none, s) := by
  induction d generalizing s with
  | done a => rfl
  | halt => rfl
  | ask q next ih => exact ih _ _

theorem run_ask (answer : (q : Q) → StateM σ (R q)) (q : Q) (next : R q → Dialogue Q R α)
    (s : σ) : (ask q next).run answer s = (next (answer q s).1).run answer (answer q s).2 := rfl

/-- A dialogue in other words runs as the dialogue itself on the answers that those words get. -/
theorem run_via {f : (q : Q) → Dialogue Q' R' (R q)} {answer : (q : Q) → StateM σ (R q)}
    {answer' : (q : Q') → StateM σ (R' q)}
    (hf : ∀ q s, (f q).run answer' s = (some (answer q s).1, (answer q s).2))
    (d : Dialogue Q R α) (s : σ) : (d.via f).run answer' s = d.run answer s := by
  induction d generalizing s with
  | done a => rfl
  | halt => rfl
  | ask q next ih =>
    rw [via, run_bind, hf, run_ask]
    exact ih _ _

theorem run_bind_except (answer : (q : Q) → StateM σ (R q)) (p : ExceptT ε (Dialogue Q R) α)
    (f : α → ExceptT ε (Dialogue Q R) β) (s : σ) : (p >>= f).run.run answer s =
      match p.run.run answer s with
      | (some (.ok a), s) => (f a).run.run answer s
      | (some (.error e), s) => (some (.error e), s)
      | (none, s) => (none, s) := by
  refine (run_bind answer p.run (ExceptT.bindCont f) s).trans ?_
  rcases p.run.run answer s with ⟨_ | ⟨_ | a⟩, s⟩ <;> rfl

end Dialogue

/-! ### Messages to other services

A message is a JSON document that is posted to an address. What comes back is a status and a
body, or nothing when there is no connection. -/

namespace Wire

structure Post where
  url : String
  /-- The value of the authorization header. -/
  authorization : Option String
  body : Json.Value

structure Reply where
  status : Nat
  body : Bytes
  deriving DecidableEq

/-- Programs that send messages. -/
abbrev Talk := Dialogue Post fun _ => Option Reply

/-- A single message, with its reply. -/
def send (p : Post) : Talk (Option Reply) := .question p

end Wire

end Attestor
