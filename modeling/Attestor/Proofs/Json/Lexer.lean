import Attestor.Json.Token
import Attestor.Json.Value
import Attestor.Proofs.Text.Basic

/-! The tokens of a written value are those that its shape calls for: quoted texts give their
content back, whatever characters are in it, and every number is read digit by digit. A number
shows its end only by what follows it, and in a value that is a comma, a closing bracket or the
end of the text. -/

namespace Attestor.Json

open Text (utf8EncodeChar_of_ascii)

/-- The number after further digits before the point. -/
def Numeral.pushNat (n : Numeral) (v : ℕ) : Numeral :=
  (Nat.digits 10 v).reverse.foldl Numeral.pushWhole n

theorem Numeral.pushNat_of_lt {v : ℕ} (hpos : 0 < v) (hlt : v < 10) (n : Numeral) :
    n.pushNat v = n.pushWhole v := by
  rw [pushNat, Nat.digits_of_lt 10 v (by omega) hlt]
  rfl

theorem Numeral.pushNat_of_le {v : ℕ} (h : 10 ≤ v) (n : Numeral) :
    n.pushNat v = (n.pushNat (v / 10)).pushWhole (v % 10) := by
  rw [pushNat, Nat.digits_def' (by decide) (by omega), List.reverse_cons, List.foldl_append]
  rfl

/-- An integer as it is read. -/
def Numeral.ofInt : ℤ → Numeral
  | .ofNat n => (start false 0).pushNat n
  | .negSucc n => (start true 0).pushNat (n + 1)

namespace Value

mutual

/-- The tokens that a value is written with. -/
def tokens : Value → List Token
  | null => [.null]
  | bool b => [.bool b]
  | number n => [.number (.ofInt n)]
  | text s => [.text (some s)]
  | array [] => [.openArray, .closeArray]
  | array (v :: rest) => .openArray :: (v.tokens ++ laterItemTokens rest)
  | object [] => [.openObject, .closeObject]
  | object ((k, v) :: rest) =>
    .openObject :: .text (some k) :: .colon :: (v.tokens ++ laterMemberTokens rest)

def laterItemTokens : List Value → List Token
  | [] => [.closeArray]
  | v :: rest => .comma :: (v.tokens ++ laterItemTokens rest)

def laterMemberTokens : List (String × Value) → List Token
  | [] => [.closeObject]
  | (k, v) :: rest => .comma :: .text (some k) :: .colon :: (v.tokens ++ laterMemberTokens rest)

end

end Value

namespace Content

/-- The content after bytes that stand for themselves. -/
def sure (b : Bytes) : Content := ⟨b.reverse, none, true⟩

theorem push_sure (b : Bytes) (x : UInt8) : (sure b).push x = sure (b ++ [x]) := by
  rw [sure, sure, List.reverse_append]
  rfl

theorem pushUnit_sure {u : ℕ} (hu : u < 0xd800) (b : Bytes) :
    (sure b).pushUnit u = sure (b ++ String.utf8EncodeChar (Char.ofNat u)) := by
  have hhigh : ¬ 0xd800 ≤ u := by omega
  have hlow : ¬ 0xdc00 ≤ u := by omega
  simp only [sure, pushUnit, hhigh, hlow, decide_false, Bool.false_and, Bool.false_eq_true,
    if_false, pushChar, List.reverse_append]

theorem finish_sure (s : String) : (sure (Text.utf8 s)).finish = some s := by
  simp only [finish, sure, Option.isNone_none, Bool.and_self, if_true, List.reverse_reverse,
    Text.ofUtf8?_utf8]

end Content

namespace Lexer

/-- Takes the bytes of characters. -/
def feed (l : Lexer) (cs : List Char) : Lexer := (cs.flatMap String.utf8EncodeChar).foldl step l

theorem feed_append (l : Lexer) (cs ds : List Char) :
    l.feed (cs ++ ds) = (l.feed cs).feed ds := by
  rw [feed, List.flatMap_append, List.foldl_append]
  rfl

theorem feed_cons {c : Char} (hc : c.toNat < 0x80) (l : Lexer) (cs : List Char) :
    l.feed (c :: cs) = (l.step (UInt8.ofNat c.toNat)).feed cs := by
  rw [feed, List.flatMap_cons, utf8EncodeChar_of_ascii hc]
  rfl

variable {ts : List Token}

/-! ### Texts -/

theorem step_text {b : UInt8} (hquote : b ≠ 0x22) (hslash : b ≠ 0x5c) (hcontrol : ¬ b < 0x20)
    (t : Content) : step ⟨ts, .text t⟩ b = ⟨ts, .text (t.push b)⟩ := by
  simp only [step, if_neg hquote, if_neg hslash, if_neg hcontrol]

theorem foldl_step_of_high {b : Bytes} (hb : ∀ x ∈ b, 0x80 ≤ x.toNat) (before : Bytes) :
    b.foldl step ⟨ts, .text (.sure before)⟩ = ⟨ts, .text (.sure (before ++ b))⟩ := by
  induction b generalizing before with
  | nil => rw [List.append_nil, List.foldl_nil]
  | cons x b ih =>
    obtain ⟨hx, hb⟩ := List.forall_mem_cons.1 hb
    have hne : ∀ y : UInt8, y.toNat < 0x80 → x ≠ y := fun y hy hxy => by
      rw [hxy] at hx
      omega
    have hlow : ¬ x < 0x20 := by
      rw [UInt8.lt_iff_toNat_lt]
      exact not_lt.2 (le_trans (by decide) hx)
    rw [List.foldl_cons, step_text (hne _ (by decide)) (hne _ (by decide)) hlow,
      Content.push_sure, ih hb, List.append_assoc, List.cons_append,
      List.nil_append]

theorem hexDigit?_hexDigit (v : ℕ) :
    (hexDigit v).toNat < 0x80 ∧ hexDigit? (UInt8.ofNat (hexDigit v).toNat) = some (v % 16) := by
  have hdigits : ∀ d < 16, (hexDigit d).toNat < 0x80 ∧
      hexDigit? (UInt8.ofNat (hexDigit d).toNat) = some d := by decide
  have hmod : hexDigit v = hexDigit (v % 16) := by simp only [hexDigit, Nat.mod_mod]
  rw [hmod]
  exact hdigits _ (Nat.mod_lt _ (by decide))

/-- A control is read back from its four digits. -/
theorem feed_control {c : Char} (hc : c.toNat < 0x20) (before : Bytes) :
    feed ⟨ts, .text (.sure before)⟩
        ['\\', 'u', '0', '0', hexDigit (c.toNat / 16), hexDigit c.toNat] =
      ⟨ts, .text (.sure (before ++ String.utf8EncodeChar c))⟩ := by
  obtain ⟨hhigh, hhigh'⟩ := hexDigit?_hexDigit (c.toNat / 16)
  obtain ⟨hlow, hlow'⟩ := hexDigit?_hexDigit c.toNat
  have hvalue : ((0 * 16 + 0) * 16 + 0) * 16 + c.toNat / 16 % 16 = c.toNat / 16 := by omega
  have hvalue' : c.toNat / 16 * 16 + c.toNat % 16 = c.toNat := Nat.div_add_mod' _ _
  have hopen : feed ⟨ts, .text (.sure before)⟩ ['\\', 'u', '0', '0'] =
      ⟨ts, .unit 2 ((0 * 16 + 0) * 16 + 0) (.sure before)⟩ := rfl
  rw [show ['\\', 'u', '0', '0', hexDigit (c.toNat / 16), hexDigit c.toNat] =
      ['\\', 'u', '0', '0'] ++ [hexDigit (c.toNat / 16), hexDigit c.toNat] from rfl,
    feed_append, hopen, feed_cons hhigh, feed_cons hlow]
  simp only [step, hhigh', hlow', hvalue, hvalue', Nat.not_ofNat_le_one, if_false,
    Nat.add_one_sub_one, le_refl, if_true]
  rw [Content.pushUnit_sure (by omega)]
  simp only [Char.ofNat_toNat, feed, List.flatMap_nil, List.foldl_nil]

theorem feed_escape (c : Char) (before : Bytes) :
    feed ⟨ts, .text (.sure before)⟩ (escape c) =
      ⟨ts, .text (.sure (before ++ String.utf8EncodeChar c))⟩ := by
  have hletter : ∀ y : UInt8, (⟨ts, .text ((Content.sure before).push y)⟩ : Lexer) =
      ⟨ts, .text (.sure (before ++ [y]))⟩ := fun y => by rw [Content.push_sure]
  unfold escape
  split_ifs with hquote hslash hback hform hline hreturn htab hcontrol
  · rw [hquote]
    exact hletter 0x22
  · rw [hslash]
    exact hletter 0x5c
  · rw [hback]
    exact hletter 0x08
  · rw [hform]
    exact hletter 0x0c
  · rw [hline]
    exact hletter 0x0a
  · rw [hreturn]
    exact hletter 0x0d
  · rw [htab]
    exact hletter 0x09
  · exact feed_control hcontrol before
  · -- any other character stands for itself, in one byte or in several high ones
    rw [feed, List.flatMap_singleton]
    rcases Nat.lt_or_ge c.toNat 0x80 with hc | hc
    · have hne : ∀ d : Char, d.toNat < 0x80 → c ≠ d →
          UInt8.ofNat c.toNat ≠ UInt8.ofNat d.toNat := fun d hd hcd h => by
        have h := congrArg UInt8.toNat h
        rw [UInt8.toNat_ofNat', UInt8.toNat_ofNat'] at h
        exact hcd (Char.toNat_inj.1 (by omega))
      have hlow : ¬ UInt8.ofNat c.toNat < 0x20 := by
        rw [UInt8.lt_iff_toNat_lt, UInt8.toNat_ofNat']
        have : UInt8.toNat 0x20 = 0x20 := rfl
        omega
      rw [utf8EncodeChar_of_ascii hc, List.foldl_cons, List.foldl_nil,
        step_text (hne '"' (by decide) hquote) (hne '\\' (by decide) hslash) hlow,
        Content.push_sure]
    · exact foldl_step_of_high (fun b hb => Text.le_toNat_of_mem_utf8EncodeChar hc hb) before

theorem feed_escaped (cs : List Char) (before : Bytes) :
    feed ⟨ts, .text (.sure before)⟩ (cs.flatMap escape) =
      ⟨ts, .text (.sure (before ++ cs.flatMap String.utf8EncodeChar))⟩ := by
  induction cs generalizing before with
  | nil => rw [List.flatMap_nil, List.flatMap_nil, List.append_nil]; rfl
  | cons c cs ih =>
    rw [List.flatMap_cons, feed_append, feed_escape, ih, List.flatMap_cons, List.append_assoc]

theorem feed_quote (s : String) :
    feed ⟨ts, .gap⟩ (quote s) = ⟨.text (some s) :: ts, .gap⟩ := by
  rw [quote, feed_cons (by decide), feed_append]
  change feed (feed ⟨ts, .text (.sure [])⟩ _) _ = _
  rw [feed_escaped, List.nil_append, ← Text.utf8_eq_flatMap]
  change (⟨.text (Content.sure (Text.utf8 s)).finish :: ts, .gap⟩ : Lexer) = _
  rw [Content.finish_sure]

/-! ### Numbers -/

theorem digit?_digitChar {d : ℕ} (hd : d < 10) :
    d.digitChar.toNat < 0x80 ∧ digit? (UInt8.ofNat d.digitChar.toNat) = some d := by
  revert d
  decide

theorem feed_digits {m : Mode} {n : Numeral}
    (hfirst : ∀ d, 0 < d → d < 10 → step ⟨ts, m⟩ (UInt8.ofNat d.digitChar.toNat) =
      ⟨ts, .number .whole (n.pushWhole d)⟩) {v : ℕ} (hv : 0 < v) :
    feed ⟨ts, m⟩ (Nat.toDigits 10 v) = ⟨ts, .number .whole (n.pushNat v)⟩ := by
  -- all digits but the last are those of a smaller number
  induction v using Nat.strongRecOn with
  | ind v ih =>
    rcases Nat.lt_or_ge v 10 with hlt | hge
    · rw [Nat.toDigits_of_lt_base hlt, feed_cons (digit?_digitChar hlt).1, hfirst v hv hlt,
        Numeral.pushNat_of_lt hv hlt]
      rfl
    · obtain ⟨hchar, hdigit⟩ := digit?_digitChar (Nat.mod_lt v (by decide : 0 < 10))
      rw [Nat.toDigits_of_base_le (by decide) hge, feed_append, ih _ (by omega) (by omega),
        feed_cons hchar, Numeral.pushNat_of_le hge]
      simp only [step, stepNumber, continueNumber?, hdigit]
      rfl

/-- Machines that have read `ts`, newest first. A number may be complete without its token
being told yet. -/
inductive Ended : List Token → Lexer → Prop
  | gap (ts : List Token) : Ended ts ⟨ts, .gap⟩
  | zero (ts : List Token) (n : Numeral) : Ended (.number n :: ts) ⟨ts, .number .zero n⟩
  | whole (ts : List Token) (n : Numeral) : Ended (.number n :: ts) ⟨ts, .number .whole n⟩

theorem feed_integer (n : ℤ) : Ended (.number (.ofInt n) :: ts) (feed ⟨ts, .gap⟩ (integer n)) := by
  cases n with
  | ofNat n =>
    rcases Nat.eq_zero_or_pos n with rfl | hn
    · exact .zero ts _
    · rw [integer, feed_digits _ hn]
      · exact .whole ts _
      · intro d hpos hlt
        interval_cases d <;> rfl
  | negSucc n =>
    rw [integer, feed_cons (by decide)]
    change Ended _ (feed ⟨ts, .number .minus (.start true 0)⟩ _)
    rw [feed_digits _ n.succ_pos]
    · exact .whole ts _
    · intro d hpos hlt
      interval_cases d <;> rfl

/-- What may follow a value: a comma or the end of an array or object. -/
theorem Ended.step {l : Lexer} (h : Ended ts l) {b : UInt8}
    (hb : b = 0x2c ∨ b = 0x5d ∨ b = 0x7d) : l.step b = stepGap ts b := by
  cases h with
  | gap => rfl
  | zero ts n | whole ts n => obtain rfl | rfl | rfl := hb <;> rfl

theorem Ended.finish {l : Lexer} (h : Ended ts l) : l.finish = ts.reverse := by
  cases h <;> rfl

end Lexer

namespace Value

open Lexer

variable {ts : List Token}

mutual

theorem feed_chars (ts : List Token) :
    ∀ v : Value, Ended (v.tokens.reverse ++ ts) (feed ⟨ts, .gap⟩ v.chars)
  | null | bool true | bool false => .gap _
  | number n => by
    rw [tokens, chars]
    exact feed_integer n
  | text s => by
    rw [tokens, chars, feed_quote]
    exact .gap _
  | array [] | object [] => .gap _
  | array (v :: rest) => by
    rw [tokens, chars, feed_cons (by decide), feed_append]
    change Ended _ (feed (feed ⟨.openArray :: ts, .gap⟩ v.chars) _)
    rw [feed_laterItems rest (feed_chars (.openArray :: ts) v)]
    simp only [List.reverse_cons, List.reverse_append, List.append_assoc, List.cons_append,
      List.nil_append]
    exact .gap _
  | object ((k, v) :: rest) => by
    rw [tokens, chars, feed_cons (by decide), feed_append]
    change Ended _ (feed (feed ⟨.openObject :: ts, .gap⟩ (quote k)) _)
    rw [feed_quote, feed_cons (by decide), feed_append]
    change Ended _ (feed (feed ⟨.colon :: .text (some k) :: .openObject :: ts, .gap⟩ v.chars) _)
    rw [feed_laterMembers rest (feed_chars _ v)]
    simp only [List.reverse_cons, List.reverse_append, List.append_assoc, List.cons_append,
      List.nil_append]
    exact .gap _

theorem feed_laterItems : ∀ (rest : List Value) {ts : List Token} {l : Lexer}, Ended ts l →
    feed l (laterItems rest) = ⟨(laterItemTokens rest).reverse ++ ts, .gap⟩
  | [], ts, l, h => by
    rw [laterItems, feed_cons (by decide), h.step (by decide)]
    rfl
  | v :: rest, ts, l, h => by
    rw [laterItems, feed_cons (by decide), h.step (by decide), feed_append]
    change feed (feed ⟨.comma :: ts, .gap⟩ v.chars) _ = _
    rw [feed_laterItems rest (feed_chars (.comma :: ts) v), laterItemTokens]
    simp only [List.reverse_cons, List.reverse_append, List.append_assoc, List.cons_append,
      List.nil_append]

theorem feed_laterMembers : ∀ (rest : List (String × Value)) {ts : List Token} {l : Lexer},
    Ended ts l → feed l (laterMembers rest) = ⟨(laterMemberTokens rest).reverse ++ ts, .gap⟩
  | [], ts, l, h => by
    rw [laterMembers, feed_cons (by decide), h.step (by decide)]
    rfl
  | (k, v) :: rest, ts, l, h => by
    rw [laterMembers, feed_cons (by decide), h.step (by decide), feed_append]
    change feed (feed ⟨.comma :: ts, .gap⟩ (quote k)) _ = _
    rw [feed_quote, feed_cons (by decide), feed_append]
    change feed (feed ⟨.colon :: .text (some k) :: .comma :: ts, .gap⟩ v.chars) _ = _
    rw [feed_laterMembers rest (feed_chars _ v), laterMemberTokens]
    simp only [List.reverse_cons, List.reverse_append, List.append_assoc, List.cons_append,
      List.nil_append]

end

/-- The text of a value has the tokens of the value. -/
theorem tokens_bytes (v : Value) : Json.tokens v.bytes = v.tokens := by
  have hfeed : v.bytes.foldl step .start = feed .start v.chars := by
    rw [bytes, Text.utf8_eq_flatMap, render, String.toList_ofList]
    rfl
  have h := feed_chars [] v
  rw [List.append_nil] at h
  rw [Json.tokens, hfeed]
  exact h.finish.trans (List.reverse_reverse _)

end Value

end Attestor.Json
