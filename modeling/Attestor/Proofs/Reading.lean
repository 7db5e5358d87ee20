import Attestor.Bytes
import Mathlib

/-! Reading one item after another. What a reader makes of a list is told item by item. A byte
string is the concatenation of the pieces it is cut into, so items that are written in one width
are read back from its pieces. -/

namespace Attestor

theorem bind_eq_ok {α β ε : Type} {x : Except ε α} {f : α → Except ε β} {b : β} :
    x >>= f = .ok b ↔ ∃ a, x = .ok a ∧ f a = .ok b := by
  cases x <;> simp [bind, Except.bind]

theorem mapError_eq_ok {α ε δ : Type} {x : Except ε α} {f : ε → δ} {a : α} :
    x.mapError f = .ok a ↔ x = .ok a := by
  cases x <;> simp [Except.mapError]

theorem mapM_eq_ok {α β ε : Type} {f : α → Except ε β} {l : List α} {rs : List β} :
    l.mapM f = .ok rs ↔ List.Forall₂ (fun a r => f a = .ok r) l rs := by
  induction l generalizing rs with
  | nil => simp [pure, Except.pure, eq_comm]
  | cons a l ih =>
    rw [List.mapM_cons, List.forall₂_cons_left_iff]
    simp only [← ih]
    cases hf : f a with
    | error e => simp [bind, Except.bind]
    | ok r =>
      cases hrest : l.mapM f with
      | error e => simp [bind, Except.bind]
      | ok rest => simp [bind, Except.bind, pure, Except.pure, eq_comm]

/-- The first item that is not read tells why the list is not. -/
theorem mapM_eq_error {α β ε : Type} {f : α → Except ε β} {l : List α} {e : ε} :
    l.mapM f = .error e ↔ ∃ (i : ℕ) (a : α), l[i]? = some a ∧ f a = .error e ∧
      ∀ j < i, ∀ b, l[j]? = some b → ∃ r, f b = .ok r := by
  induction l with
  | nil => simp [pure, Except.pure]
  | cons a l ih =>
    rw [List.mapM_cons]
    cases hf : f a with
    | error e' =>
      constructor
      · intro h
        cases h
        exact ⟨0, a, rfl, hf, fun j hj => absurd hj (Nat.not_lt_zero j)⟩
      · rintro ⟨_ | i, b, hb, hfb, hbefore⟩
        · cases hb
          rw [hf] at hfb
          cases hfb
          rfl
        · obtain ⟨r, hr⟩ := hbefore 0 i.succ_pos a rfl
          cases hf.symm.trans hr
    | ok r =>
      have hrest : (do let r ← Except.ok r; let rest ← l.mapM f; pure (r :: rest)) =
          .error e ↔ l.mapM f = .error e := by
        cases l.mapM f <;> simp [bind, Except.bind, pure, Except.pure]
      rw [hrest, ih]
      constructor
      · rintro ⟨i, b, hb, hfb, hbefore⟩
        refine ⟨i + 1, b, hb, hfb, ?_⟩
        rintro (_ | j) hj c hc
        · cases hc
          exact ⟨r, hf⟩
        · exact hbefore j (Nat.lt_of_succ_lt_succ hj) c hc
      · rintro ⟨_ | i, b, hb, hfb, hbefore⟩
        · cases hb
          cases hf.symm.trans hfb
        · exact ⟨i, b, hb, hfb, fun j hj c hc =>
            hbefore (j + 1) (Nat.succ_lt_succ hj) c hc⟩

theorem mapM_eq_some {α β : Type} {f : α → Option β} {l : List α} {rs : List β} :
    l.mapM f = some rs ↔ List.Forall₂ (fun a r => f a = some r) l rs := by
  induction l generalizing rs with
  | nil => simp [eq_comm]
  | cons a l ih =>
    rw [List.mapM_cons, List.forall₂_cons_left_iff]
    simp only [← ih]
    cases hf : f a with
    | none => simp
    | some r =>
      cases hrest : l.mapM f with
      | none => simp
      | some rest => simp [eq_comm]

/-- Items that are each read from their own form only. -/
theorem forall₂_iff_eq_map {α β : Type} {R : α → β → Prop} {f : β → α}
    (h : ∀ a b, R a b ↔ a = f b) {l : List α} {rs : List β} :
    List.Forall₂ R l rs ↔ l = rs.map f := by
  have hR : R = fun a b => a = f b := funext₂ fun a b => propext (h a b)
  rw [hR, ← List.forall₂_eq_eq_eq, List.forall₂_map_right_iff]

/-- A first part of known length is split off. -/
theorem eq_append_iff {α : Type} {l first rest : List α} {n : ℕ} (hn : first.length = n) :
    l = first ++ rest ↔ l.take n = first ∧ l.drop n = rest := by
  constructor
  · rintro rfl
    exact ⟨List.take_left' hn, List.drop_left' hn⟩
  · rintro ⟨rfl, rfl⟩
    rw [List.take_append_drop]

namespace Bytes

variable {n : ℕ}

theorem flatten_pieces (n : ℕ) : ∀ b : Bytes, (pieces n b).flatten = b
  | [] => by rw [pieces_nil, List.flatten_nil]
  | x :: rest => by
    rw [pieces_cons, List.flatten_cons, flatten_pieces n (rest.drop n), List.cons_append,
      List.take_append_drop]
termination_by b => b.length
decreasing_by simp only [List.length_drop, List.length_cons]; omega

theorem pieces_flatten {blocks : List Bytes} (h : ∀ block ∈ blocks, block.length = n + 1) :
    pieces n blocks.flatten = blocks := by
  induction blocks with
  | nil => exact pieces_nil n
  | cons block blocks ih =>
    obtain ⟨hblock, hblocks⟩ := List.forall_mem_cons.1 h
    obtain ⟨x, rest, rfl⟩ := List.exists_cons_of_length_eq_add_one hblock
    have hrest : rest.length = n := Nat.succ.inj hblock
    rw [List.flatten_cons, List.cons_append, pieces_cons, List.take_left' hrest,
      List.drop_left' hrest, ih hblocks]

theorem pieces_eq_map {α : Type} {f : α → Bytes} (hf : ∀ a, (f a).length = n + 1) {b : Bytes}
    {as : List α} : pieces n b = as.map f ↔ b = as.flatMap f := by
  rw [List.flatMap_def]
  constructor
  · intro h
    rw [← h, flatten_pieces]
  · rintro rfl
    exact pieces_flatten (List.forall_mem_map.2 fun a _ => hf a)

end Bytes

/-- Byte strings of one width are read back from what they are joined to. -/
theorem Octets.mapM_pieces_eq_some {n : ℕ} {rest : Bytes} {as : List (Octets (n + 1))} :
    (Bytes.pieces n rest).mapM (Octets.ofList? (n + 1)) = some as ↔
      rest = as.flatMap Octets.toList := by
  rw [mapM_eq_some, ← Bytes.pieces_eq_map Octets.length_eq]
  exact forall₂_iff_eq_map (f := Octets.toList) fun _ _ => Octets.ofList?_eq_some

/-- Bytes whose number is a multiple of a width are so many byte strings of that width. -/
theorem Octets.exists_eq_flatMap {n k : ℕ} {b : Bytes} (h : b.length = k * n) :
    ∃ as : List (Octets n), as.length = k ∧ b = as.flatMap Octets.toList := by
  induction k generalizing b with
  | zero =>
    rw [Nat.zero_mul, List.length_eq_zero_iff] at h
    exact ⟨[], rfl, h⟩
  | succ k ih =>
    rw [Nat.succ_mul] at h
    obtain ⟨as, hlength, has⟩ := ih (b := b.drop n) (by rw [List.length_drop, h]; omega)
    have hfirst : (b.take n).length = n := List.length_take_of_le (by omega)
    refine ⟨⟨b.take n, hfirst⟩ :: as, congrArg Nat.succ hlength, ?_⟩
    rw [List.flatMap_cons, ← has, List.take_append_drop]

end Attestor
