import Attestor.Text.Digits

/-! The identifiers of users: sixteen bytes, written as hexadecimal digits in five groups. -/

namespace Attestor

/-- The identifier of a user. -/
abbrev UserId := Octets 16

namespace UserId

/-- Groups of eight, four, four, four and twelve digits. -/
def text (id : UserId) : String :=
  let ds := (Text.Hex.encode id.toList).toList
  let group := fun (start size : Nat) => String.ofList ((ds.drop start).take size)
  "-".intercalate [group 0 8, group 8 4, group 12 4, group 16 4, group 20 12]

def ofDigits? (digits : Bytes) : Option UserId :=
  match Text.Hex.decodeDigits digits with
  | .ok b => Octets.ofList? 16 b
  | .error _ => none

/-- Reads five groups of digits with a hyphen between any two. -/
def ofGroups? (b : Bytes) : Option UserId :=
  let hyphens := [8, 13, 18, 23]
  if b.length = 36 ∧ hyphens.all fun i => b[i]? = some 0x2d then
    ofDigits? (b.take 8 ++ (b.drop 9).take 4 ++ (b.drop 14).take 4 ++ (b.drop 19).take 4 ++
      b.drop 24)
  else none

/-- The name of the scheme that identifiers belong to. -/
def scheme : List Char := "urn:uuid:".toList

/-- Whether bytes are the name of the scheme, in letters of either case. -/
def isScheme (b : Bytes) : Bool := (b.map fun x => (Char.ofNat x.toNat).toLower) = scheme

/-- Reads a text of the bare digits, or of the groups, which may stand between braces or
after the name of their scheme. Digits may be of either case. -/
def parse? (s : String) : Option UserId :=
  let b := Text.utf8 s
  if b.length = 32 then ofDigits? b
  else if b.length = 36 then ofGroups? b
  else if b.length = 38 ∧ b.head? = some 0x7b ∧ b.getLast? = some 0x7d then
    ofGroups? ((b.drop 1).take 36)
  else if b.length = 45 ∧ isScheme (b.take 9) then ofGroups? (b.drop 9)
  else none

end UserId

end Attestor
