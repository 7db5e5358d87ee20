import Attestor.Text.Basic
import Mathlib

/-! The bytes of texts, blanks at their ends, and separators in them. A continuation byte neither
begins a text nor follows an ASCII byte in it. Texts that differ in the blanks around them only
are trimmed to the same, and pieces without the separator are told by their joined text. -/

namespace Attestor.Text

/-! ### Bytes -/

theorem isContinuation_eq_true {b : UInt8} :
    isContinuation b = true ↔ 0x80 ≤ b.toNat ∧ b.toNat ≤ 0xbf := by
  simp only [isContinuation, Bool.and_eq_true, decide_eq_true_eq, UInt8.le_iff_toNat_le]
  rfl

theorem utf8EncodeChar_of_ascii {c : Char} (h : c.toNat < 0x80) :
    String.utf8EncodeChar c = [UInt8.ofNat c.toNat] :=
  if_pos (Nat.le_of_lt_succ h)

theorem utf8EncodeChar_of_not_ascii {c : Char} (h : 0x80 ≤ c.toNat) :
    ∃ lead tail, String.utf8EncodeChar c = lead :: tail ∧ 0xc0 ≤ lead.toNat ∧
      ∀ b ∈ tail, isContinuation b = true := by
  have hv : ¬ c.val.toNat ≤ 127 := by
    change ¬ c.toNat ≤ 127
    omega
  -- only the number of continuations depends on the character
  have hcont : ∀ n : ℕ, isContinuation (UInt8.ofNat (n % 64 + 128)) = true := by
    intro n
    rw [isContinuation_eq_true, UInt8.toNat_ofNat']
    omega
  rw [String.utf8EncodeChar, if_neg hv]
  split_ifs with h₂ h₃
  all_goals
    refine ⟨_, _, rfl, ?_, ?_⟩
    · rw [UInt8.toNat_ofNat']
      omega
    · simp only [List.forall_mem_cons, List.not_mem_nil, IsEmpty.forall_iff, implies_true, hcont,
        and_self]

theorem le_toNat_of_mem_utf8EncodeChar {c : Char} {b : UInt8} (h : 0x80 ≤ c.toNat)
    (hb : b ∈ String.utf8EncodeChar c) : 0x80 ≤ b.toNat := by
  obtain ⟨lead, tail, hc, hlead, htail⟩ := utf8EncodeChar_of_not_ascii h
  rw [hc] at hb
  rcases List.mem_cons.1 hb with rfl | hb
  · omega
  · exact (isContinuation_eq_true.1 (htail b hb)).1

/-- Where one byte may follow the other in a text: no continuation follows an ASCII byte. -/
def Follows (a b : UInt8) : Prop := a.toNat < 0x80 → isContinuation b = false

instance (a b : UInt8) : Decidable (Follows a b) := inferInstanceAs (Decidable (_ → _))

theorem isChain_append_of_high {l m : Bytes} (hl : ∀ b ∈ l, 0x80 ≤ b.toNat)
    (hm : ∀ a, (a :: m).IsChain Follows) {a : UInt8} (ha : 0x80 ≤ a.toNat) :
    (a :: (l ++ m)).IsChain Follows := by
  induction l generalizing a with
  | nil => exact hm a
  | cons b l ih =>
    obtain ⟨hb, hl⟩ := List.forall_mem_cons.1 hl
    exact List.isChain_cons_cons.2 ⟨fun hlow => absurd hlow (by omega), ih hl hb⟩

/-- A text may follow any byte. -/
theorem isChain_utf8 (a : UInt8) (s : String) : (a :: utf8 s).IsChain Follows := by
  rw [utf8_eq_flatMap]
  induction s.toList generalizing a with
  | nil => exact List.isChain_singleton a
  | cons c cs ih =>
    rw [List.flatMap_cons]
    rcases Nat.lt_or_ge c.toNat 0x80 with hc | hc
    · rw [utf8EncodeChar_of_ascii hc, List.singleton_append]
      refine List.isChain_cons_cons.2 ⟨fun _ => ?_, ih _⟩
      rw [← Bool.not_eq_true, isContinuation_eq_true, UInt8.toNat_ofNat']
      omega
    · obtain ⟨lead, tail, henc, hlead, htail⟩ := utf8EncodeChar_of_not_ascii hc
      rw [henc, List.cons_append]
      refine List.isChain_cons_cons.2 ⟨fun _ => ?_, isChain_append_of_high
        (fun b hb => (isContinuation_eq_true.1 (htail b hb)).1) ih (by omega)⟩
      rw [← Bool.not_eq_true, isContinuation_eq_true]
      omega

/-- What stands in a text obeys the rule as the text does. -/
theorem isChain_of_isInfix_utf8 {l : Bytes} {s : String} (h : l <:+: utf8 s) :
    l.IsChain Follows :=
  List.IsChain.infix (isChain_utf8 0 s).tail h

theorem isContinuation_head_of_isPrefix_utf8 {b : UInt8} {l : Bytes} {s : String}
    (h : b :: l <+: utf8 s) : isContinuation b = false := by
  have hprefix : 0 :: b :: l <+: 0 :: utf8 s := (List.prefix_cons_inj 0).2 h
  have hchain := List.IsChain.infix (isChain_utf8 0 s) hprefix.isInfix
  exact (List.isChain_cons_cons.1 hchain).1 (by decide)

/-- The core with any blanks before and after it. -/
def Padded (core s : String) : Prop :=
  ∃ before after : List Char, (∀ c ∈ before, isBlank c) ∧ (∀ c ∈ after, isBlank c) ∧
    s = String.ofList before ++ core ++ String.ofList after

/-- There is no blank in the text. -/
def Solid (s : String) : Prop := ∀ c ∈ s.toList, isBlank c = false

theorem Padded.refl (s : String) : Padded s s :=
  ⟨[], [], nofun, nofun, by rw [String.ofList_nil, String.empty_append, String.append_empty]⟩

/-! ### Trimming -/

theorem trimChars_eq (s : List Char) :
    trimChars s = (s.dropWhile isBlank).rdropWhile isBlank := rfl

theorem trimChars_pad {before after : List Char} (hbefore : ∀ c ∈ before, isBlank c)
    (hafter : ∀ c ∈ after, isBlank c) (s : List Char) :
    trimChars (before ++ s ++ after) = trimChars s := by
  rw [trimChars_eq, trimChars_eq, List.append_assoc, List.dropWhile_append_of_pos hbefore,
    List.dropWhile_append]
  split_ifs with hnone
  · -- nothing but blanks
    have hs : s.dropWhile isBlank = [] := List.isEmpty_iff.1 hnone
    rw [hs, List.dropWhile_eq_nil_iff.2 hafter]
  · rw [List.rdropWhile, List.reverse_append,
      List.dropWhile_append_of_pos fun c hc => hafter c (List.mem_reverse.1 hc)]
    rfl

theorem exists_pad_trimChars (s : List Char) : ∃ before after : List Char,
    (∀ c ∈ before, isBlank c) ∧ (∀ c ∈ after, isBlank c) ∧ s = before ++ trimChars s ++ after := by
  refine ⟨s.takeWhile isBlank, (s.dropWhile isBlank).rtakeWhile isBlank,
    fun c hc => List.mem_takeWhile_imp hc, fun c hc => List.mem_rtakeWhile_imp hc, ?_⟩
  rw [trimChars_eq, List.append_assoc, List.rdropWhile_append_rtakeWhile,
    List.takeWhile_append_dropWhile]

theorem toList_trim (s : String) : (trim s).toList = trimChars s.toList := String.toList_ofList

theorem padded_trim (s : String) : Padded (trim s) s := by
  obtain ⟨before, after, hbefore, hafter, hs⟩ := exists_pad_trimChars s.toList
  refine ⟨before, after, hbefore, hafter, String.toList_inj.1 ?_⟩
  rw [String.toList_append, String.toList_append, String.toList_ofList, String.toList_ofList,
    toList_trim]
  exact hs

theorem Padded.trim_eq {core s : String} (h : Padded core s) : trim s = trim core := by
  obtain ⟨before, after, hbefore, hafter, rfl⟩ := h
  rw [trim, String.toList_append, String.toList_append, String.toList_ofList,
    String.toList_ofList, trimChars_pad hbefore hafter]
  rfl

theorem trim_trim (s : String) : trim (trim s) = trim s := (padded_trim s).trim_eq.symm

theorem trim_of_solid {s : String} (h : Solid s) : trim s = s := by
  have hsolid : ∀ c ∈ s.toList, ¬isBlank c := fun c hc => Bool.eq_false_iff.1 (h c hc)
  have hfront : s.toList.dropWhile isBlank = s.toList :=
    List.dropWhile_eq_self_iff.2 fun _ => hsolid _ (List.getElem_mem _)
  have hback : s.toList.rdropWhile isBlank = s.toList :=
    List.rdropWhile_eq_self_iff.2 fun hne => hsolid _ (List.getLast_mem hne)
  rw [trim, trimChars_eq, hfront, hback, String.ofList_toList]

theorem trim_eq_iff_padded {core s : String} (hcore : trim core = core) :
    trim s = core ↔ Padded core s := by
  constructor
  · rintro rfl
    exact padded_trim s
  · intro h
    rw [h.trim_eq, hcore]

/-! ### Splitting -/

theorem splitChars_eq_splitOn (sep : Char) (s : List Char) : splitChars sep s = s.splitOn sep := by
  induction s with
  | nil => rw [List.splitOn_nil]; rfl
  | cons c rest ih =>
    rw [List.splitOn, List.splitOnP_cons_eq_if_modifyHead, splitChars]
    rw [List.splitOn] at ih
    by_cases hc : c = sep
    · rw [if_pos hc, if_pos (beq_iff_eq.2 hc), ih]
    · rw [if_neg hc, if_neg (beq_iff_eq.not.2 hc), ih]
      cases hrest : rest.splitOnP (· == sep) with
      | nil => exact absurd hrest (List.splitOnP_ne_nil _ _)
      | cons piece pieces => rfl

variable {sep : Char} {glue : String}

theorem intercalate_split (hglue : glue.toList = [sep]) (s : String) :
    glue.intercalate (split sep s) = s := by
  rw [← String.toList_inj, String.toList_intercalate, hglue, split, splitChars_eq_splitOn,
    List.map_map, show String.toList ∘ String.ofList = id from funext fun _ => String.toList_ofList,
    List.map_id, List.intercalate_splitOn]

theorem split_intercalate (hglue : glue.toList = [sep]) {parts : List String} (hne : parts ≠ [])
    (hparts : ∀ part ∈ parts, sep ∉ part.toList) : split sep (glue.intercalate parts) = parts := by
  rw [split, splitChars_eq_splitOn, String.toList_intercalate, hglue,
    List.splitOn_intercalate sep (List.forall_mem_map.2 hparts) (by simpa using hne), List.map_map,
    show String.ofList ∘ String.toList = id from funext fun _ => String.ofList_toList, List.map_id]

/-! ### Parts with blanks around them -/

/-- The parts with any blanks around each of them, and any blank parts between them. -/
inductive Spaced : List String → List String → Prop
  | nil : Spaced [] []
  | blank {parts others : List String} {s : String} :
      Padded "" s → Spaced parts others → Spaced parts (s :: others)
  | part {parts others : List String} {part s : String} :
      Padded part s → Spaced parts others → Spaced (part :: parts) (s :: others)

theorem Spaced.refl (parts : List String) : Spaced parts parts := by
  induction parts with
  | nil => exact .nil
  | cons part parts ih => exact .part (Padded.refl part) ih

theorem Spaced.trimmed_eq {parts others : List String} (h : Spaced parts others) :
    (others.map trim).filter (· ≠ "") = (parts.map trim).filter (· ≠ "") := by
  induction h with
  | nil => rfl
  | blank hs _ ih =>
    rw [List.map_cons, hs.trim_eq, List.filter_cons_of_neg (by decide), ih]
  | part hs _ ih =>
    rw [List.map_cons, List.map_cons, hs.trim_eq, List.filter_cons, List.filter_cons, ih]

/-- What is left of the parts, with blanks around it. -/
theorem spaced_trimmed (parts : List String) :
    Spaced ((parts.map trim).filter (· ≠ "")) parts := by
  induction parts with
  | nil => exact .nil
  | cons part parts ih =>
    by_cases hblank : trim part = ""
    · rw [List.map_cons, List.filter_cons_of_neg (by simpa using hblank)]
      exact .blank (hblank ▸ padded_trim part) ih
    · rw [List.map_cons, List.filter_cons_of_pos (by simpa using hblank)]
      exact .part (padded_trim part) ih

theorem Padded.not_mem {core s : String} (h : Padded core s) (hsep : isBlank sep = false)
    (hcore : sep ∉ core.toList) : sep ∉ s.toList := by
  obtain ⟨before, after, hbefore, hafter, rfl⟩ := h
  simp only [String.toList_append, String.toList_ofList, List.mem_append, not_or]
  refine ⟨⟨fun hc => ?_, hcore⟩, fun hc => ?_⟩
  · exact Bool.eq_false_iff.1 hsep (hbefore sep hc)
  · exact Bool.eq_false_iff.1 hsep (hafter sep hc)

theorem Spaced.not_mem {parts others : List String} (h : Spaced parts others)
    (hsep : isBlank sep = false) (hparts : ∀ part ∈ parts, sep ∉ part.toList) :
    ∀ s ∈ others, sep ∉ s.toList := by
  induction h with
  | nil => exact nofun
  | blank hs _ ih => exact List.forall_mem_cons.2 ⟨hs.not_mem hsep (by simp), ih hparts⟩
  | part hs _ ih =>
    obtain ⟨hpart, hparts⟩ := List.forall_mem_cons.1 hparts
    exact List.forall_mem_cons.2 ⟨hs.not_mem hsep hpart, ih hparts⟩

/-- Joining the parts and splitting their text leaves as much of them as they have themselves. -/
theorem trimmed_split_intercalate (hglue : glue.toList = [sep]) {parts : List String}
    (hparts : ∀ part ∈ parts, sep ∉ part.toList) :
    ((split sep (glue.intercalate parts)).map trim).filter (· ≠ "") =
      (parts.map trim).filter (· ≠ "") := by
  cases parts with
  | nil => rfl
  | cons part parts => rw [split_intercalate hglue (List.cons_ne_nil _ _) hparts]

end Attestor.Text
