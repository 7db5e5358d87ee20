import Attestor.Bytes

/-! Texts: their UTF-8 bytes, reading those strictly or with a replacement character for what is
not UTF-8, and the blanks at the two ends of a text. -/

namespace Attestor.Text

def utf8 (s : String) : Bytes := s.toByteArray.data.toList

def ofUtf8? (b : Bytes) : Option String := String.fromUTF8? ⟨b.toArray⟩

theorem utf8_eq_flatMap (s : String) : utf8 s = s.toList.flatMap String.utf8EncodeChar := by
  rw [utf8, ← String.utf8Encode_toList]
  simp [List.utf8Encode]

theorem ofUtf8?_eq_some_iff {b : Bytes} {s : String} : ofUtf8? b = some s ↔ b = utf8 s := by
  unfold ofUtf8? String.fromUTF8? utf8
  constructor
  · intro h
    split at h
    · simp only [Option.some.injEq] at h
      subst h
      simp [String.fromUTF8]
    · simp at h
  · rintro rfl
    have hv : ByteArray.IsValidUTF8 ⟨s.toByteArray.data.toList.toArray⟩ := s.isValidUTF8
    rw [dif_pos hv]
    congr 1

@[simp] theorem ofUtf8?_utf8 (s : String) : ofUtf8? (utf8 s) = some s :=
  ofUtf8?_eq_some_iff.2 rfl

theorem utf8_inj {s t : String} : utf8 s = utf8 t ↔ s = t := by
  constructor
  · intro h
    have := congrArg ofUtf8? h
    simpa using this
  · rintro rfl
    rfl

/-- Whether `b` may follow the first byte of a character. -/
def isContinuation (b : UInt8) : Bool := 0x80 ≤ b && b ≤ 0xbf

/-- Whether `b₁` may follow `b₀` in a character of three or four bytes: no longer form
than needed, no surrogate, nothing above U+10FFFF. -/
def isSecond (b₀ b₁ : UInt8) : Bool :=
  if b₀ = 0xe0 then 0xa0 ≤ b₁ && b₁ ≤ 0xbf
  else if b₀ = 0xed then 0x80 ≤ b₁ && b₁ ≤ 0x9f
  else if b₀ = 0xf0 then 0x90 ≤ b₁ && b₁ ≤ 0xbf
  else if b₀ = 0xf4 then 0x80 ≤ b₁ && b₁ ≤ 0x8f
  else isContinuation b₁

def replacement : Char := Char.ofNat 0xfffd

/-- The low six bits of a continuation byte. -/
def low (b : UInt8) : Nat := b.toNat % 64

/-- The first character and how many bytes after the first belong to it. A sequence that
breaks off is one replacement character as far as it could still have become a character. -/
def firstChar (b₀ : UInt8) (rest : Bytes) : Char × Nat :=
  if b₀ < 0x80 then (Char.ofNat b₀.toNat, 0)
  else if 0xc2 ≤ b₀ && b₀ ≤ 0xdf then
    match rest with
    | b₁ :: _ =>
      if isContinuation b₁ then (Char.ofNat (b₀.toNat % 32 * 64 + low b₁), 1) else (replacement, 0)
    | _ => (replacement, 0)
  else if 0xe0 ≤ b₀ && b₀ ≤ 0xef then
    match rest with
    | b₁ :: b₂ :: _ =>
      if !isSecond b₀ b₁ then (replacement, 0)
      else if !isContinuation b₂ then (replacement, 1)
      else (Char.ofNat ((b₀.toNat % 16 * 64 + low b₁) * 64 + low b₂), 2)
    | [b₁] => (replacement, if isSecond b₀ b₁ then 1 else 0)
    | [] => (replacement, 0)
  else if 0xf0 ≤ b₀ && b₀ ≤ 0xf4 then
    match rest with
    | b₁ :: b₂ :: b₃ :: _ =>
      if !isSecond b₀ b₁ then (replacement, 0)
      else if !isContinuation b₂ then (replacement, 1)
      else if !isContinuation b₃ then (replacement, 2)
      else (Char.ofNat (((b₀.toNat % 8 * 64 + low b₁) * 64 + low b₂) * 64 + low b₃), 3)
    | [b₁, b₂] =>
      (replacement, if !isSecond b₀ b₁ then 0 else if isContinuation b₂ then 2 else 1)
    | [b₁] => (replacement, if isSecond b₀ b₁ then 1 else 0)
    | [] => (replacement, 0)
  else (replacement, 0)

/-- The characters of `b` after those in `acc`, which is newest first. -/
def lossyOnto (acc : List Char) : Bytes → List Char
  | [] => acc.reverse
  | b₀ :: rest =>
    let (c, n) := firstChar b₀ rest
    lossyOnto (c :: acc) (rest.drop n)
termination_by b => b.length
decreasing_by simp only [List.length_drop, List.length_cons]; omega

/-- Bytes as text; each maximal part that is not UTF-8 becomes one replacement character. -/
def lossy (b : Bytes) : String := String.ofList (lossyOnto [] b)

/-! ### Blanks

White space in the Unicode sense, which is trimmed from both ends of a text. -/

/-- The characters with the Unicode property `White_Space`. -/
def isBlank (c : Char) : Bool :=
  let v := c.toNat
  (9 ≤ v && v ≤ 13) || v == 0x20 || v == 0x85 || v == 0xa0 || v == 0x1680 ||
    (0x2000 ≤ v && v ≤ 0x200a) || v == 0x2028 || v == 0x2029 || v == 0x202f || v == 0x205f ||
    v == 0x3000

/-- The characters of a text without the blanks at its two ends. -/
def trimChars (s : List Char) : List Char :=
  ((s.dropWhile isBlank).reverse.dropWhile isBlank).reverse

def trim (s : String) : String := String.ofList (trimChars s.toList)

/-- The pieces of a text between occurrences of `sep`; always at least one. -/
def splitChars (sep : Char) : List Char → List (List Char)
  | [] => [[]]
  | c :: rest =>
    if c = sep then [] :: splitChars sep rest
    else
      match splitChars sep rest with
      | [] => [[c]]
      | piece :: pieces => (c :: piece) :: pieces

def split (sep : Char) (s : String) : List String := (splitChars sep s.toList).map String.ofList

/-- ASCII capitals become small letters; every other character stays. -/
def lower (s : String) : String := s.map Char.toLower

end Attestor.Text
