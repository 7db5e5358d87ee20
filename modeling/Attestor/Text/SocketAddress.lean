import Attestor.Text.Quoted

/-! The addresses that a server listens on: an IPv4 or IPv6 address and a port. Of the many
texts for an IPv6 address the shortest is written: the longest run of zero groups, if it is
longer than one, becomes two colons, and an embedded IPv4 address keeps its dots. -/

namespace Attestor.Text

inductive SocketAddress where
  | v4 (octets : List Nat) (port : Nat)
  | v6 (groups : List Nat) (scope port : Nat)
  deriving DecidableEq

namespace SocketAddress

def digit? (base : Nat) (c : Char) : Option Nat :=
  let v :=
    if '0' ≤ c ∧ c ≤ '9' then c.toNat - 0x30
    else if 'a' ≤ c ∧ c ≤ 'f' then c.toNat - 0x57
    else if 'A' ≤ c ∧ c ≤ 'F' then c.toNat - 0x37
    else base
  if v < base then some v else none

/-- What can be read off the front of a text. -/
abbrev Reader (α : Type) := List Char → Option (α × List Char)

/-- All the digits in front, as a number below `bound`. There must be one, and no more than
`most`; zeros in front may be ruled out. -/
def number (base bound most : Nat) (zeros : Bool) : Reader Nat := fun cs =>
  let ds := cs.takeWhile fun c => (digit? base c).isSome
  let v := ds.foldl (fun acc c => acc * base + (digit? base c).getD 0) 0
  if ds = [] ∨ most < ds.length ∨ bound ≤ v then none
  else if !zeros && ds.head? = some '0' && 1 < ds.length then none
  else some (v, cs.drop ds.length)

def char (c : Char) : Reader Unit
  | d :: cs => if c = d then some ((), cs) else none
  | [] => none

/-- Four numbers below 256 with dots between them. -/
def octets : Reader (List Nat) := fun cs => do
  let octet := number 10 256 3 false
  let (a, cs) ← octet cs
  let (_, cs) ← char '.' cs
  let (b, cs) ← octet cs
  let (_, cs) ← char '.' cs
  let (c, cs) ← octet cs
  let (_, cs) ← char '.' cs
  let (d, cs) ← octet cs
  some ([a, b, c, d], cs)

/-- Groups with colons between them, as many as there are but at most `most`. The last two
may be written as an IPv4 address, which ends the list; it is told whether they were. -/
def groups : (most : Nat) → (first : Bool) → List Char → List Nat × Bool × List Char
  | 0, _, cs => ([], false, cs)
  | most + 1, first, cs =>
    match if first then some ((), cs) else char ':' cs with
    | none => ([], false, cs)
    | some (_, body) =>
      match if 0 < most then octets body else none with
      | some ([a, b, c, d], rest) => ([a * 256 + b, c * 256 + d], true, rest)
      | _ =>
        match number 16 65536 4 true body with
        | none => ([], false, cs)
        | some (g, rest) =>
          let (gs, dotted, rest) := groups most false rest
          (g :: gs, dotted, rest)

/-- Eight groups, or fewer with two colons for the zero groups that are left out. -/
def sixteen : Reader (List Nat) := fun cs =>
  let (front, dotted, cs) := groups 8 true cs
  if front.length = 8 then some (front, cs)
  else if dotted then none
  else do
    let (_, cs) ← char ':' cs
    let (_, cs) ← char ':' cs
    let (back, _, cs) := groups (7 - front.length) true cs
    some (front ++ List.replicate (8 - front.length - back.length) 0 ++ back, cs)

def port : Reader Nat := fun cs => do
  let (_, cs) ← char ':' cs
  number 10 65536 cs.length true cs

/-- The zone of an address, zero if it is not given. -/
def scope (cs : List Char) : Nat × List Char :=
  match (char '%' cs).bind fun (_, cs) => number 10 UInt32.size cs.length true cs with
  | some (v, cs) => (v, cs)
  | none => (0, cs)

def readV4 : Reader SocketAddress := fun cs => do
  let (ip, cs) ← octets cs
  let (p, cs) ← port cs
  some (v4 ip p, cs)

def readV6 : Reader SocketAddress := fun cs => do
  let (_, cs) ← char '[' cs
  let (ip, cs) ← sixteen cs
  let (zone, cs) := scope cs
  let (_, cs) ← char ']' cs
  let (p, cs) ← port cs
  some (v6 ip zone p, cs)

def parse? (s : String) : Option SocketAddress :=
  match readV4 s.toList <|> readV6 s.toList with
  | some (a, []) => some a
  | _ => none

/-- Where the first of the longest runs of zero groups starts, and how long it is. -/
def longestZeros (gs : List Nat) : Nat × Nat :=
  let run := fun i => ((gs.drop i).takeWhile (· = 0)).length
  (List.range gs.length).foldl (fun best i => if best.2 < run i then (i, run i) else best) (0, 0)

def dotted (octets : List Nat) : String := ".".intercalate (octets.map toString)

def colons (gs : List Nat) : String :=
  ":".intercalate (gs.map fun g => String.ofList (hexNumber g))

def shortest (gs : List Nat) : String :=
  match gs with
  | [0, 0, 0, 0, 0, 0xffff, a, b] => "::ffff:" ++ dotted [a / 256, a % 256, b / 256, b % 256]
  | gs =>
    let (start, length) := longestZeros gs
    if 1 < length then colons (gs.take start) ++ "::" ++ colons (gs.drop (start + length))
    else colons gs

def text : SocketAddress → String
  | v4 octets port => dotted octets ++ ":" ++ toString port
  | v6 groups zone port =>
    "[" ++ shortest groups ++ (if zone = 0 then "" else "%" ++ toString zone) ++ "]:" ++
      toString port

end SocketAddress

end Attestor.Text
