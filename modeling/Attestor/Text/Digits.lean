import Attestor.Bytes
import Attestor.Hash
import Attestor.Text.Basic
import Attestor.Text.Quoted

/-! Numbers and bytes as digits: digit strings in any base, whole numbers in decimal, bytes as
hexadecimal, base-64 and base-58 text. Writing and reading are inverse to each other on the
written forms. -/

namespace Attestor.Text.Radix

/-- The number written by digits, most significant first. -/
def value (base : Nat) (ds : List Nat) : Nat := ds.foldl (fun acc d => acc * base + d) 0

/-- The digits of `v`, most significant first and none for zero, put before `acc`. -/
def digitsOnto (base v : Nat) (acc : List Nat) : List Nat :=
  if _h : v = 0 ∨ base ≤ 1 then acc else digitsOnto base (v / base) (v % base :: acc)
termination_by v
decreasing_by exact Nat.div_lt_self (by omega) (by omega)

def digits (base v : Nat) : List Nat := digitsOnto base v []

/-- The digit string in base `dst` with as many leading zeros and the same value. -/
def rebase (src dst : Nat) (ds : List Nat) : List Nat :=
  ds.takeWhile (· = 0) ++ digits dst (value src ds)

end Attestor.Text.Radix

/-! ### Decimal

Texts may carry a plus sign and leading zeros, and must fit a given bound. -/

namespace Attestor.Text.Decimal

inductive Error where
  | empty
  | invalidDigit
  | tooLarge
  deriving DecidableEq

def Error.message : Error → String
  | .empty => "cannot parse integer from empty string"
  | .invalidDigit => "invalid digit found in string"
  | .tooLarge => "number too large to fit in target type"

def digit? (c : Char) : Option Nat :=
  if '0' ≤ c ∧ c ≤ '9' then some (c.toNat - 0x30) else none

/-- Continues a number below `bound` with further digits; the first fault wins. -/
def readDigits (bound acc : Nat) : List Char → Except Error Nat
  | [] => .ok acc
  | c :: rest =>
    match digit? c with
    | none => .error .invalidDigit
    | some d =>
      let v := acc * 10 + d
      if v < bound then readDigits bound v rest else .error .tooLarge

/-- A number below `bound`. -/
def read (bound : Nat) (s : String) : Except Error Nat :=
  match s.toList with
  | [] => .error .empty
  | ['+'] | ['-'] => .error .invalidDigit
  | '+' :: rest => readDigits bound 0 rest
  | cs => readDigits bound 0 cs

end Attestor.Text.Decimal

/-! ### Hexadecimal

Writing uses small letters; reading takes both cases. -/

namespace Attestor.Text.Hex

inductive Error where
  | oddLength
  | invalidCharacter (byte : UInt8) (position : Nat)
  deriving DecidableEq

/-- An offending byte is shown as the character with that code point. -/
def Error.message : Error → String
  | .oddLength => "Odd number of digits"
  | .invalidCharacter byte position =>
    "Invalid character " ++ quotedChar (Char.ofNat byte.toNat) ++ " at position " ++
      toString position

/-- The digit for a value below sixteen. -/
def digit (v : UInt8) : UInt8 := if v < 10 then v + 0x30 else v + 0x57

def value? (c : UInt8) : Option UInt8 :=
  if 0x30 ≤ c && c ≤ 0x39 then some (c - 0x30)
  else if 0x41 ≤ c && c ≤ 0x46 then some (c - 0x37)
  else if 0x61 ≤ c && c ≤ 0x66 then some (c - 0x57)
  else none

/-- The two digits of each byte, in ASCII. -/
def digits (b : Bytes) : Bytes := b.flatMap fun x => [digit (x / 16), digit (x % 16)]

def encode (b : Bytes) : String :=
  String.ofList ((digits b).map fun x => Char.ofNat x.toNat)

/-- Reads pairs of digits from `position` on; `acc` holds the bytes before, newest first. -/
def decodeFrom (position : Nat) (acc : Bytes) : Bytes → Except Error Bytes
  | h :: l :: rest =>
    match value? h, value? l with
    | some x, some y => decodeFrom (position + 2) ((x * 16 + y) :: acc) rest
    | none, _ => .error (.invalidCharacter h position)
    | some _, none => .error (.invalidCharacter l (position + 1))
  | _ => .ok acc.reverse

def decodeDigits (b : Bytes) : Except Error Bytes :=
  if b.length % 2 = 1 then .error .oddLength else decodeFrom 0 [] b

/-- Bytes from text. An odd number of UTF-8 bytes is refused before any of them is read. -/
def decode (s : String) : Except Error Bytes := decodeDigits (utf8 s)

end Attestor.Text.Hex

/-! ### Base 64

Three bytes give four letters of six bits each, and a last group of one or two bytes is filled
up with `=`. -/

namespace Attestor.Text.Base64

def alphabet : List Char :=
  "ABCDEFGHIJKLMNOPQRSTUVWXYZabcdefghijklmnopqrstuvwxyz0123456789+/".toList

/-- The letter for the six low bits of a number. -/
def letter (v : Nat) : Char := alphabet.getD (v % 64) 'A'

def chars : Bytes → List Char
  | [] => []
  | [a] => [letter (a.toNat / 4), letter (a.toNat * 16), '=', '=']
  | [a, b] =>
    let v := a.toNat * 256 + b.toNat
    [letter (v / 1024), letter (v / 16), letter (v * 4), '=']
  | a :: b :: c :: rest =>
    let v := a.toNat * 65536 + b.toNat * 256 + c.toNat
    letter (v / 262144) :: letter (v / 4096) :: letter (v / 64) :: letter v :: chars rest

def encode (b : Bytes) : String := String.ofList (chars b)

end Attestor.Text.Base64

/-! ### Base 58

The payload and the first four bytes of its double SHA-256 are one number in base 58, each
leading zero byte written as the first letter of the alphabet. -/

namespace Attestor.Text.Base58

inductive Error where
  | invalidCharacter
  | tooShort
  | checksum
  deriving DecidableEq

def Error.message : Error → String
  | .invalidCharacter => "decode"
  | .tooShort => "too short"
  | .checksum => "incorrect checksum"

/-- Digits and letters without `0`, `O`, `I` and `l`. -/
def alphabet : List Char :=
  "123456789ABCDEFGHJKLMNPQRSTUVWXYZabcdefghijkmnopqrstuvwxyz".toList

def letter (d : Nat) : Char := alphabet.getD d '1'

def digit? (c : Char) : Option Nat := alphabet.idxOf? c

def encodeRaw (b : Bytes) : String :=
  String.ofList ((Radix.rebase 256 58 (b.map UInt8.toNat)).map letter)

def decodeRaw? (s : String) : Option Bytes :=
  (s.toList.mapM digit?).map fun ds => (Radix.rebase 58 256 ds).map UInt8.ofNat

def checksum (payload : Bytes) : Bytes := (Hash.doubleSha256 payload).toList.take 4

/-- The text of a payload. -/
def encode (payload : Bytes) : String := encodeRaw (payload ++ checksum payload)

/-- The payload of a text. Letters are checked first, then the length, then the checksum. -/
def decode (s : String) : Except Error Bytes :=
  match decodeRaw? s with
  | none => .error .invalidCharacter
  | some b =>
    if b.length < 4 then .error .tooShort
    else
      let payload := b.take (b.length - 4)
      if b.drop (b.length - 4) = checksum payload then .ok payload else .error .checksum

end Attestor.Text.Base58
