import Attestor.Text.Basic

/-! The tokens of a JSON text. A machine takes the bytes one at a time; the first byte that fits no
token ends the list with a token for junk. -/

namespace Attestor.Json

/-! ### Numbers

Of a number it matters whether it is a plain natural number, and whether it lies in the range of
double-precision floats. It is read as 64 bits of digits and a power of ten, each rounded to a
double before they are multiplied, and it is the product that must be finite. So numbers next to
the end of the range may fall on the other side of it than their value does. -/

/-- The parts of a written number: the leading digits that fit 64 bits, the power of ten
that they must be scaled by, and the exponent. It is `full` from the first digit that did
not fit to the end of its side of the point; `plain` holds without a point and without an
exponent. -/
structure Numeral where
  negative : Bool
  digits : Nat
  scale : Int
  full : Bool
  powerNegative : Bool
  power : Nat
  plain : Bool
  deriving DecidableEq

namespace Numeral

def start (negative : Bool) (digit : Nat) : Numeral := ⟨negative, digit, 0, false, false, 0, true⟩

/-- Whether one more digit fits. -/
def fits (n : Numeral) (d : Nat) : Bool := !n.full && n.digits * 10 + d < UInt64.size

/-- One more digit before the point. If it does not fit, it counts as a zero. -/
def pushWhole (n : Numeral) (d : Nat) : Numeral :=
  if n.fits d then { n with digits := n.digits * 10 + d }
  else { n with scale := n.scale + 1, full := true }

/-- The point. Digits behind it are tried anew. -/
def pushPoint (n : Numeral) : Numeral := { n with full := false, plain := false }

/-- One more digit behind the point. If it does not fit, it and those that follow are
dropped. -/
def pushPlace (n : Numeral) (d : Nat) : Numeral :=
  if n.fits d then { n with digits := n.digits * 10 + d, scale := n.scale - 1 }
  else { n with full := true }

/-- A power that is out of range for any digits but zeros. -/
def powerLimit : Nat := 1 <<< 31

/-- One more digit of the exponent. -/
def pushPower (n : Numeral) (d : Nat) : Numeral :=
  { n with power := min (n.power * 10 + d) powerLimit, plain := false }

/-- The value of a plain number below `2 ^ 64` without a sign. -/
def natural? (n : Numeral) : Option Nat :=
  if n.plain && !n.full && !n.negative then some n.digits else none

/-- The value of a plain number of a magnitude below `2 ^ 64`; negative zero is not one. -/
def integer? (n : Numeral) : Option Int :=
  if !n.plain || n.full || (n.negative && n.digits == 0) then none
  else some (if n.negative then -(n.digits : Int) else n.digits)

/-- The nearest number that has no more than 53 significant binary digits. A number in the
middle of two goes to the one whose last digit is even. -/
def nearest (v : Nat) : Nat :=
  let unit := 1 <<< (v.log2 - 52)
  let below := v / unit
  let rest := 2 * (v % unit)
  if unit < rest || (unit == rest && below % 2 == 1) then (below + 1) * unit else below * unit

/-- The least magnitude that rounds to no finite double. -/
def limit : Nat := (1 <<< 1024) - (1 <<< 970)

/-- Whether the number lies in the range of doubles. An exponent above 308 is too large for
any digits but zeros, and one below zero leaves less than the digits alone. -/
def isFinite (n : Numeral) : Bool :=
  n.digits == 0 ||
    match (if n.powerNegative then -(n.power : Int) else n.power) + n.scale with
    | .ofNat e => e ≤ 308 && nearest n.digits * nearest (Nat.pow 10 e) < limit
    | .negSucc _ => true

end Numeral

/-! ### Tokens -/

/-- The content of a text token is missing when the token is well formed but its content
is no text: a surrogate without its partner, or bytes that are not UTF-8. -/
inductive Token where
  | openObject
  | closeObject
  | openArray
  | closeArray
  | colon
  | comma
  | null
  | bool (b : Bool)
  | number (n : Numeral)
  | text (content : Option String)
  | junk
  deriving DecidableEq

/-- The content of a quoted text as far as it was read: its bytes, newest first, and a
leading surrogate that waits for the trailing one. -/
structure Content where
  bytes : Bytes
  high : Option Nat
  sound : Bool

namespace Content

def empty : Content := ⟨[], none, true⟩

/-- A byte that stands for itself, or for which an escape of one letter stands. -/
def push (t : Content) (b : UInt8) : Content := ⟨b :: t.bytes, none, t.sound && t.high.isNone⟩

def pushChar (t : Content) (v : Nat) : Content :=
  ⟨(String.utf8EncodeChar (Char.ofNat v)).reverse ++ t.bytes, none, t.sound⟩

/-- A 16-bit unit given by four digits. -/
def pushUnit (t : Content) (u : Nat) : Content :=
  let isLow := 0xdc00 ≤ u && u ≤ 0xdfff
  match t.high with
  | some h =>
    if isLow then t.pushChar (0x10000 + (h - 0xd800) * 0x400 + (u - 0xdc00))
    else { t with high := none, sound := false }
  | none =>
    if 0xd800 ≤ u && u ≤ 0xdbff then { t with high := some u }
    else if isLow then { t with sound := false }
    else t.pushChar u

def finish (t : Content) : Option String :=
  if t.sound && t.high.isNone then Text.ofUtf8? t.bytes.reverse else none

end Content

/-- The parts of a number, each named for what was read last. -/
inductive NumberPart where
  | minus
  | zero
  | whole
  | point
  | place
  | mark
  | sign
  | power
  deriving DecidableEq

/-- Whether a number may end here. -/
def NumberPart.complete : NumberPart → Bool
  | zero | whole | place | power => true
  | minus | point | mark | sign => false

inductive Mode where
  /-- Between tokens. -/
  | gap
  /-- Inside a word of which `left` must still come. -/
  | word (left : Bytes) (token : Token)
  | number (part : NumberPart) (n : Numeral)
  | text (content : Content)
  /-- After a backslash. -/
  | escape (content : Content)
  /-- After `\u` and some of its digits: how many are due, and the value so far. -/
  | unit (due value : Nat) (content : Content)
  /-- After junk. -/
  | broken

/-- The tokens that were read, newest first, and where the machine stands. -/
structure Lexer where
  tokens : List Token
  mode : Mode

namespace Lexer

def start : Lexer := ⟨[], .gap⟩

def fail (tokens : List Token) : Lexer := ⟨.junk :: tokens, .broken⟩

def isBlank (b : UInt8) : Bool := b = 0x20 || b = 0x09 || b = 0x0a || b = 0x0d

def digit? (b : UInt8) : Option Nat :=
  if 0x30 ≤ b && b ≤ 0x39 then some (b.toNat - 0x30) else none

def hexDigit? (b : UInt8) : Option Nat :=
  if 0x30 ≤ b && b ≤ 0x39 then some (b.toNat - 0x30)
  else if 0x41 ≤ b && b ≤ 0x46 then some (b.toNat - 0x37)
  else if 0x61 ≤ b && b ≤ 0x66 then some (b.toNat - 0x57)
  else none

/-- A byte between tokens. -/
def stepGap (tokens : List Token) (b : UInt8) : Lexer :=
  if isBlank b then ⟨tokens, .gap⟩
  else if b = 0x7b then ⟨.openObject :: tokens, .gap⟩
  else if b = 0x7d then ⟨.closeObject :: tokens, .gap⟩
  else if b = 0x5b then ⟨.openArray :: tokens, .gap⟩
  else if b = 0x5d then ⟨.closeArray :: tokens, .gap⟩
  else if b = 0x3a then ⟨.colon :: tokens, .gap⟩
  else if b = 0x2c then ⟨.comma :: tokens, .gap⟩
  else if b = 0x22 then ⟨tokens, .text .empty⟩
  else if b = 0x6e then ⟨tokens, .word [0x75, 0x6c, 0x6c] .null⟩
  else if b = 0x74 then ⟨tokens, .word [0x72, 0x75, 0x65] (.bool true)⟩
  else if b = 0x66 then ⟨tokens, .word [0x61, 0x6c, 0x73, 0x65] (.bool false)⟩
  else if b = 0x2d then ⟨tokens, .number .minus (.start true 0)⟩
  else
    match digit? b with
    | some 0 => ⟨tokens, .number .zero (.start false 0)⟩
    | some d => ⟨tokens, .number .whole (.start false d)⟩
    | none => fail tokens

/-- The number after one more byte; none if the byte does not belong to it. -/
def continueNumber? (part : NumberPart) (n : Numeral) (b : UInt8) :
    Option (NumberPart × Numeral) :=
  let isMark := b = 0x65 || b = 0x45
  match part, digit? b with
  | .minus, some 0 => some (.zero, n)
  | .minus, some d => some (.whole, n.pushWhole d)
  | .whole, some d => some (.whole, n.pushWhole d)
  | .point, some d | .place, some d => some (.place, n.pushPlace d)
  | .mark, some d | .sign, some d | .power, some d => some (.power, n.pushPower d)
  | .zero, none | .whole, none =>
    if b = 0x2e then some (.point, n.pushPoint) else if isMark then some (.mark, n) else none
  | .place, none => if isMark then some (.mark, n) else none
  | .mark, none =>
    if b = 0x2b then some (.sign, n)
    else if b = 0x2d then some (.sign, { n with powerNegative := true })
    else none
  | .zero, some _ | .minus, none | .point, none | .sign, none | .power, none => none

def stepNumber (tokens : List Token) (part : NumberPart) (n : Numeral) (b : UInt8) : Lexer :=
  match continueNumber? part n b with
  | some (part, n) => ⟨tokens, .number part n⟩
  | none =>
    if part.complete && (digit? b).isNone then stepGap (.number n :: tokens) b else fail tokens

/-- The byte that a letter after a backslash stands for. -/
def escaped? (b : UInt8) : Option UInt8 :=
  if b = 0x22 || b = 0x5c || b = 0x2f then some b
  else if b = 0x62 then some 0x08
  else if b = 0x66 then some 0x0c
  else if b = 0x6e then some 0x0a
  else if b = 0x72 then some 0x0d
  else if b = 0x74 then some 0x09
  else none

def step (l : Lexer) (b : UInt8) : Lexer :=
  match l.mode with
  | .gap => stepGap l.tokens b
  | .word [] token => stepGap (token :: l.tokens) b
  | .word [c] token => if b = c then ⟨token :: l.tokens, .gap⟩ else fail l.tokens
  | .word (c :: left) token => if b = c then ⟨l.tokens, .word left token⟩ else fail l.tokens
  | .number part n => stepNumber l.tokens part n b
  | .text content =>
    if b = 0x22 then ⟨.text content.finish :: l.tokens, .gap⟩
    else if b = 0x5c then ⟨l.tokens, .escape content⟩
    else if b < 0x20 then fail l.tokens
    else ⟨l.tokens, .text (content.push b)⟩
  | .escape content =>
    if b = 0x75 then ⟨l.tokens, .unit 4 0 content⟩
    else
      match escaped? b with
      | some c => ⟨l.tokens, .text (content.push c)⟩
      | none => fail l.tokens
  | .unit due value content =>
    match hexDigit? b with
    | none => fail l.tokens
    | some d =>
      let value := value * 16 + d
      if due ≤ 1 then ⟨l.tokens, .text (content.pushUnit value)⟩
      else ⟨l.tokens, .unit (due - 1) value content⟩
  | .broken => l

/-- The tokens in order. A token that was begun and not finished is junk, but a number may
end with the text. -/
def finish (l : Lexer) : List Token :=
  match l.mode with
  | .gap | .broken => l.tokens.reverse
  | .number part n =>
    if part.complete then (.number n :: l.tokens).reverse else (.junk :: l.tokens).reverse
  | _ => (.junk :: l.tokens).reverse

end Lexer

/-- The tokens of a text given as bytes. -/
def tokens (b : Bytes) : List Token := (b.foldl Lexer.step Lexer.start).finish

end Attestor.Json
