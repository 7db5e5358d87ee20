import Attestor.Text.Basic

/-! JSON values and their compact text: no blanks, members in the order given, and in
texts only quotes, backslashes and controls escaped. -/

namespace Attestor.Json

inductive Value where
  | null
  | bool (b : Bool)
  | number (n : Int)
  | text (s : String)
  | array (items : List Value)
  | object (members : List (String × Value))

/-- The last digit of a value in hexadecimal. -/
def hexDigit (v : Nat) : Char :=
  let d := v % 16
  Char.ofNat (if d < 10 then d + 0x30 else d + 0x57)

/-- One character inside a quoted text. -/
def escape (c : Char) : List Char :=
  if c = '"' then ['\\', '"']
  else if c = '\\' then ['\\', '\\']
  else if c = '\x08' then ['\\', 'b']
  else if c = '\x0c' then ['\\', 'f']
  else if c = '\n' then ['\\', 'n']
  else if c = '\r' then ['\\', 'r']
  else if c = '\t' then ['\\', 't']
  else if c.toNat < 0x20 then ['\\', 'u', '0', '0', hexDigit (c.toNat / 16), hexDigit c.toNat]
  else [c]

def quote (s : String) : List Char := '"' :: (s.toList.flatMap escape ++ ['"'])

def integer : Int → List Char
  | .ofNat n => Nat.toDigits 10 n
  | .negSucc n => '-' :: Nat.toDigits 10 (n + 1)

namespace Value

mutual

def chars : Value → List Char
  | null => ['n', 'u', 'l', 'l']
  | bool true => ['t', 'r', 'u', 'e']
  | bool false => ['f', 'a', 'l', 's', 'e']
  | number n => integer n
  | text s => quote s
  | array [] => ['[', ']']
  | array (v :: rest) => '[' :: (v.chars ++ laterItems rest)
  | object [] => ['\x7b', '\x7d']
  | object ((k, v) :: rest) => '\x7b' :: (quote k ++ ':' :: (v.chars ++ laterMembers rest))

/-- What follows the first item of an array, to its end. -/
def laterItems : List Value → List Char
  | [] => [']']
  | v :: rest => ',' :: (v.chars ++ laterItems rest)

/-- What follows the first member of an object, to its end. -/
def laterMembers : List (String × Value) → List Char
  | [] => ['\x7d']
  | (k, v) :: rest => ',' :: (quote k ++ ':' :: (v.chars ++ laterMembers rest))

end

/-- The text of a value. -/
def render (v : Value) : String := String.ofList v.chars

def bytes (v : Value) : Bytes := Text.utf8 v.render

/-- A text, or null where there is none. -/
def ofText? : Option String → Value
  | some s => text s
  | none => null

def ofNat (n : Nat) : Value := number n

end Value

end Attestor.Json
