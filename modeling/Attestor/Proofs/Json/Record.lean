import Attestor.Json.Record
import Attestor.Proofs.Json.Lexer

/-! A written value is read back whole, and so is a record from the object it is written as: the
tokens of a value put its draft together, with nothing after it and nothing broken off, and an
object that holds the fields of a record in order, under names that are all different, is read
field by field. -/

namespace Attestor.Json

/-! ### Drafts -/

namespace Value

mutual

/-- The value as a document that was read to its end. -/
def draft : Value → Draft
  | null => .null
  | bool b => .bool b
  | number n => .number (.ofInt n)
  | text s => .text (some s)
  | array items => .array (itemDrafts items) true
  | object members => .object (memberDrafts members) true

def itemDrafts : List Value → List Draft
  | [] => []
  | v :: rest => v.draft :: itemDrafts rest

def memberDrafts : List (String × Value) → List (Option String × Draft)
  | [] => []
  | (k, v) :: rest => (some k, v.draft) :: memberDrafts rest

end

theorem itemDrafts_eq_map (items : List Value) : itemDrafts items = items.map draft := by
  induction items with
  | nil => rw [itemDrafts, List.map_nil]
  | cons v rest ih => rw [itemDrafts, List.map_cons, ih]

/-- No value starts with the end of an array, so the first item is read as any other. -/
theorem head_tokens (v : Value) : ∃ t ts, v.tokens = t :: ts ∧ t ≠ .closeArray := by
  rcases v with _ | b | n | s | (_ | ⟨v, rest⟩) | (_ | ⟨⟨k, v⟩, rest⟩)
  all_goals
    rw [tokens]
    exact ⟨_, _, rfl, nofun⟩

end Value

namespace Builder

open Value

variable {frames : List Frame}

theorem step_valueOrClose {t : Token} (ht : t ≠ .closeArray) :
    step (reading (.array [] :: frames) .valueOrClose) t =
      step (reading (.array [] :: frames) .value) t := by
  cases t <;> first | rfl | exact absurd rfl ht

mutual

theorem foldl_tokens : ∀ (v : Value) (frames : List Frame),
    v.tokens.foldl step (reading frames .value) = place v.draft frames
  | .null, _ | .bool _, _ | .number _, _ | .text _, _ => by
    rw [Value.tokens, draft]
    rfl
  | .array [], _ | .object [], _ => by
    rw [Value.tokens, draft]
    first
      | rw [itemDrafts]
        rfl
      | rw [memberDrafts]
        rfl
  | .array (v :: rest), frames => by
    -- the array might have ended where the first item stands
    obtain ⟨t, ts, htokens, ht⟩ := v.head_tokens
    have hfirst : v.tokens.foldl step (reading (.array [] :: frames) .valueOrClose) =
        place v.draft (.array [] :: frames) := by
      rw [← foldl_tokens v, htokens, List.foldl_cons, step_valueOrClose ht]
      rfl
    rw [Value.tokens, draft, itemDrafts, List.foldl_cons, List.foldl_append]
    change (laterItemTokens rest).foldl step
      (v.tokens.foldl step (reading (.array [] :: frames) .valueOrClose)) = _
    rw [hfirst]
    exact foldl_laterItems rest [v.draft] frames
  | .object ((k, v) :: rest), frames => by
    rw [Value.tokens, draft, memberDrafts, List.foldl_cons, List.foldl_cons, List.foldl_cons,
      List.foldl_append]
    change (laterMemberTokens rest).foldl step
      (v.tokens.foldl step (reading (.member [] (some k) :: frames) .value)) = _
    rw [foldl_tokens v]
    exact foldl_laterMembers rest [(some k, v.draft)] frames

theorem foldl_laterItems : ∀ (rest : List Value) (before : List Draft) (frames : List Frame),
    (laterItemTokens rest).foldl step (reading (.array before :: frames) .separator) =
      place (.array (before.reverse ++ itemDrafts rest) true) frames
  | [], before, frames => by
    rw [laterItemTokens, itemDrafts, List.append_nil]
    rfl
  | v :: rest, before, frames => by
    rw [laterItemTokens, itemDrafts, List.foldl_cons, List.foldl_append]
    change (laterItemTokens rest).foldl step
      (v.tokens.foldl step (reading (.array before :: frames) .value)) = _
    rw [foldl_tokens v, List.append_cons, ← List.reverse_cons]
    exact foldl_laterItems rest (v.draft :: before) frames

theorem foldl_laterMembers : ∀ (rest : List (String × Value))
    (before : List (Option String × Draft)) (frames : List Frame),
    (laterMemberTokens rest).foldl step (reading (.object before :: frames) .separator) =
      place (.object (before.reverse ++ memberDrafts rest) true) frames
  | [], before, frames => by
    rw [laterMemberTokens, memberDrafts, List.append_nil]
    rfl
  | (k, v) :: rest, before, frames => by
    rw [laterMemberTokens, memberDrafts, List.foldl_cons, List.foldl_cons, List.foldl_cons,
      List.foldl_append]
    change (laterMemberTokens rest).foldl step
      (v.tokens.foldl step (reading (.member before (some k) :: frames) .value)) = _
    rw [foldl_tokens v, List.append_cons, ← List.reverse_cons]
    exact foldl_laterMembers rest ((some k, v.draft) :: before) frames

end

end Builder

theorem Draft.ofBytes_bytes (v : Value) : ofBytes v.bytes = (v.draft, true) := by
  rw [ofBytes, v.tokens_bytes, Builder.start, Builder.foldl_tokens]
  rfl

/-- What is found under a name that no two have. -/
theorem find?_eq_some_of_nodup {α β : Type} [DecidableEq β] {name : α → β} {l : List α}
    (hl : (l.map name).Nodup) {a : α} (ha : a ∈ l) : l.find? (name · = name a) = some a := by
  induction l with
  | nil => exact absurd ha List.not_mem_nil
  | cons b l ih =>
    obtain ⟨hnew, hl⟩ := List.nodup_cons.1 hl
    rcases List.mem_cons.1 ha with rfl | ha
    · exact List.find?_cons_of_pos (by simp)
    · rw [List.find?_cons_of_neg, ih hl ha]
      rw [decide_eq_true_iff]
      exact fun hname => hnew (List.mem_map.2 ⟨a, ha, hname.symm⟩)

/-! ### Numbers -/

theorem Numeral.pushNat_start {v : ℕ} (hv : v < UInt64.size) (negative : Bool) :
    (start negative 0).pushNat v = start negative v := by
  have hfits : ∀ w d : ℕ, w * 10 + d < UInt64.size →
      (start negative w).pushWhole d = start negative (w * 10 + d) := by
    intro w d h
    simp only [pushWhole, fits, start, h, Bool.not_false, decide_true, Bool.and_self, if_true]
  induction v using Nat.strongRecOn with
  | ind v ih =>
    rcases Nat.lt_or_ge v 10 with hlt | hge
    · rcases Nat.eq_zero_or_pos v with rfl | hpos
      · rfl
      · rw [pushNat_of_lt hpos hlt, hfits _ _ (by omega), Nat.zero_mul, Nat.zero_add]
    · have hvalue : v / 10 * 10 + v % 10 = v := Nat.div_add_mod' v 10
      rw [pushNat_of_le hge, ih _ (by omega) (by omega), hfits _ _ (by omega), hvalue]

theorem Numeral.ofInt_natCast {v : ℕ} (hv : v < UInt64.size) : ofInt (v : ℤ) = start false v :=
  pushNat_start hv false

/-- Rounding at most doubles a number. -/
theorem Numeral.nearest_le {v : ℕ} (hv : 0 < v) : nearest v ≤ 2 * v := by
  have hunit : 1 <<< (v.log2 - 52) ≤ v := by
    rw [Nat.one_shiftLeft]
    exact (Nat.pow_le_pow_right (by decide) (Nat.sub_le _ _)).trans (Nat.log2_self_le hv.ne')
  have hbelow : v / (1 <<< (v.log2 - 52)) * (1 <<< (v.log2 - 52)) ≤ v := Nat.div_mul_le_self _ _
  rw [nearest]
  simp only [Nat.add_mul, Nat.one_mul]
  split_ifs <;> omega

theorem Draft.isKept_ofNat {v : ℕ} (hv : v < UInt64.size) (depth : ℕ) :
    (Value.ofNat v).draft.isKept depth = true := by
  have hfinite : (Numeral.start false v).isFinite = true := by
    rcases Nat.eq_zero_or_pos v with rfl | hpos
    · rfl
    · have hlimit : 2 * UInt64.size < Numeral.limit := by decide
      have hone : Numeral.nearest (Nat.pow 10 0) = 1 := by decide
      have hnearest := Numeral.nearest_le hpos
      have hlt : (decide (0 ≤ 308) &&
          decide (Numeral.nearest v * Numeral.nearest (Nat.pow 10 0) < Numeral.limit)) = true := by
        rw [hone, Nat.mul_one]
        exact Bool.and_eq_true_iff.2 ⟨rfl, decide_eq_true (by omega)⟩
      exact Bool.or_eq_true_iff.2 (.inr hlt)
  rw [Value.ofNat, Value.draft, Numeral.ofInt_natCast hv]
  exact hfinite

theorem Draft.asNat_ofNat {bound v : ℕ} (hv : v < bound) (hbound : bound ≤ UInt64.size) :
    asNat bound (Value.ofNat v).draft = .ok v := by
  rw [Value.ofNat, Value.draft, asNat, Numeral.ofInt_natCast (hv.trans_le hbound)]
  simp only [Numeral.natural?, Numeral.start, Bool.not_false, Bool.and_self, if_true, hv]

theorem Draft.asUInt32_ofNat (v : UInt32) : (Value.ofNat v.toNat).draft.asUInt32 = .ok v := by
  rw [asUInt32, asNat_ofNat v.toNat_lt_size (by decide)]
  exact congrArg Except.ok (UInt32.ofNat_toNat)

theorem Draft.asUInt64_ofNat (v : UInt64) : (Value.ofNat v.toNat).draft.asUInt64 = .ok v := by
  rw [asUInt64, asNat_ofNat v.toNat_lt_size le_rfl]
  exact congrArg Except.ok (UInt64.ofNat_toNat)

/-! ### Lists -/

theorem Draft.asList_map {α β : Type} {read : Draft → Except Fault α} {write : β → Value}
    {f : β → α} {xs : List β} (h : ∀ x ∈ xs, read (write x).draft = .ok (f x)) :
    asList read (Value.array (xs.map write)).draft = .ok (xs.map f) := by
  have hread : (xs.map (Value.draft ∘ write)).mapM read = .ok (xs.map f) := by
    induction xs with
    | nil => rfl
    | cons x xs ih =>
      obtain ⟨hx, hxs⟩ := List.forall_mem_cons.1 h
      rw [List.map_cons, List.mapM_cons, Function.comp_apply, hx, ih hxs]
      rfl
  rw [Value.draft, Value.itemDrafts_eq_map, List.map_map, asList, hread]
  rfl

theorem Draft.asList_array {α : Type} {read : Draft → Except Fault α} {write : α → Value}
    (h : ∀ x, read (write x).draft = .ok x) (xs : List α) :
    asList read (Value.array (xs.map write)).draft = .ok xs := by
  rw [asList_map fun x _ => h x, List.map_id']

/-! ### What may be null -/

theorem Draft.asOptional_of_ne_null {α : Type} (read : Draft → Except Fault α) {d : Draft}
    (hd : d ≠ .null) : asOptional read d = (read d).map some := by
  cases d with
  | null => exact absurd rfl hd
  | _ => rfl

/-! ### Objects -/

namespace Record

variable {σ : Type} {fields : List (Member σ)}

/-- Reads fields in order. -/
def readAll (s : σ) (parts : List (Member σ × Draft)) : Except Fault σ :=
  parts.foldlM (fun s p => p.1.read s p.2) s

theorem members_of_parts (hnames : (fields.map (·.name)).Nodup) :
    ∀ (parts : List (Member σ × Draft)) (seen : List String) (s : σ),
      (∀ p ∈ parts, p.1 ∈ fields) → (parts.map (·.1.name)).Nodup →
      (∀ p ∈ parts, p.1.name ∉ seen) →
      members fields seen s (parts.map fun p => (some p.1.name, p.2)) =
        (readAll s parts).map fun s => ((parts.map (·.1.name)).reverse ++ seen, s)
  | [], seen, s, _, _, _ => rfl
  | (field, value) :: parts, seen, s, hmem, hparts, hseen => by
    obtain ⟨hfield, hmem⟩ := List.forall_mem_cons.1 hmem
    obtain ⟨hnew, hparts⟩ := List.nodup_cons.1 hparts
    obtain ⟨hunseen, hseen⟩ := List.forall_mem_cons.1 hseen
    rw [List.map_cons, members]
    simp only [find?_eq_some_of_nodup hnames hfield, if_neg hunseen]
    rw [readAll, List.foldlM_cons]
    cases field.read s value with
    | error e => rfl
    | ok s =>
      have hrest := members_of_parts hnames parts (field.name :: seen) s hmem hparts
        fun p hp hpseen => (List.mem_cons.1 hpseen).elim
          (fun hname => hnew (List.mem_map.2 ⟨p, hp, hname⟩)) (hseen p hp)
      rw [List.map_cons, List.reverse_cons, List.append_assoc]
      exact hrest

/-- An object that holds all fields is read as the fields are. -/
theorem read_object (hnames : (fields.map (·.name)).Nodup) (values : List Draft)
    (hlength : fields.length = values.length) (s : σ) :
    read fields s (.object ((fields.zip values).map fun p => (some p.1.name, p.2)) true) =
      readAll s (fields.zip values) := by
  have hparts : (fields.zip values).map (·.1.name) = fields.map (·.name) := by
    have hfst : (fields.zip values).map Prod.fst = fields := List.map_fst_zip hlength.le
    conv_rhs => rw [← hfst, List.map_map]
    rfl
  have hgiven : ¬ fields.any (fun f => f.presence = .required &&
      f.name ∉ ((fields.zip values).map (·.1.name)).reverse ++ []) = true := by
    rw [List.any_eq_true, hparts, List.append_nil]
    rintro ⟨f, hf, hmissing⟩
    obtain ⟨-, hmissing⟩ := Bool.and_eq_true_iff.1 hmissing
    exact of_decide_eq_true hmissing (List.mem_reverse.2 (List.mem_map_of_mem hf))
  rw [read, members_of_parts hnames _ _ _ (fun p hp => (List.of_mem_zip hp).1)
    (by rwa [hparts]) fun _ _ => List.not_mem_nil]
  cases readAll s (fields.zip values) with
  | error e => rfl
  | ok s => exact if_neg hgiven

end Record

end Attestor.Json
