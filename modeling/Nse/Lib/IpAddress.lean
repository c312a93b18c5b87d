/-
  Nse.Lib.IpAddress — the addresses Python's `ipaddress.ip_address` accepts from a string,
  and the number each denotes.
-/

import Nse.Lib.PyStr

namespace IpAddress

inductive Address where
  | v4 (n : Nat)
  | v6 (n : Nat) (scope : Option String)
  deriving DecidableEq

def decDigit (c : Char) : Option Nat := if '0' ≤ c ∧ c ≤ '9' then some (c.toNat - 48) else none

def hexDigit (c : Char) : Option Nat :=
  if '0' ≤ c ∧ c ≤ '9' then some (c.toNat - 48)
  else if 'a' ≤ c ∧ c ≤ 'f' then some (c.toNat - 87)
  else if 'A' ≤ c ∧ c ≤ 'F' then some (c.toNat - 55)
  else none

def number (base : Nat) (digit : Char → Option Nat) : Nat → List Char → Option Nat
  | n, [] => some n
  | n, c :: cs => (digit c).bind fun d => number base digit (base * n + d) cs

/-- At most three decimal digits, no leading zero, at most 255. -/
def parseOctet (s : String) : Option Nat :=
  let cs := s.toList
  if cs = [] ∨ cs.length > 3 ∨ (cs.head? = some '0' ∧ cs ≠ ['0']) then none
  else (number 10 decDigit 0 cs).filter (· ≤ 255)

def parseV4 (s : String) : Option Nat :=
  match PyStr.splitOn '.' s with
  | [a, b, c, d] =>
    (parseOctet a).bind fun a => (parseOctet b).bind fun b => (parseOctet c).bind fun c =>
      (parseOctet d).map fun d => ((a * 256 + b) * 256 + c) * 256 + d
  | _ => none

def parseHextet (s : String) : Option Nat :=
  let cs := s.toList
  if cs = [] ∨ cs.length > 4 then none else number 16 hexDigit 0 cs

def hextets : Nat → List String → Option Nat
  | n, [] => some n
  | n, p :: ps => (parseHextet p).bind fun h => hextets (65536 * n + h) ps

/-- The indices of the empty parts between the first and the last. -/
def innerEmpty (parts : List String) : List Nat :=
  (List.range parts.length).filter fun i => 0 < i && i + 1 < parts.length && parts[i]? == some ""

def sumParts (parts : List String) : Option Nat :=
  if parts.length > 9 then none
  else
    match innerEmpty parts with
    | [] => if parts.length = 8 then hextets 0 parts else none
    | [skip] =>
      -- `::`: an empty first or last part must belong to it
      let hi := if parts.head? = some "" then skip - 1 else skip
      let lo := if parts.getLast? = some "" then parts.length - skip - 2 else parts.length - skip - 1
      if (parts.head? = some "" ∧ hi ≠ 0) ∨ (parts.getLast? = some "" ∧ lo ≠ 0) ∨ hi + lo ≥ 8 then none
      else
        (hextets 0 (parts.take hi)).bind fun n =>
          hextets (n <<< (16 * (8 - (hi + lo)))) (parts.drop (parts.length - lo))
    | _ => none

/-- The parts between colons, an IPv4 suffix turned into two of them. -/
def v6Parts (s : String) : Option (List String) :=
  let parts := PyStr.splitOn ':' s
  if parts.length < 3 then none
  else
    match parts.getLast? with
    | some last =>
      if PyStr.contains '.' last then
        (parseV4 last).map fun n => parts.dropLast ++ [hex (n / 65536), hex (n % 65536)]
      else some parts
    | none => none
where
  /-- `'%x' % n`. -/
  hex (n : Nat) : String := String.ofList (Nat.toDigits 16 n)

def parseV6 (s : String) : Option (Nat × Option String) :=
  let addr := s.toList.takeWhile (· != '%')
  match s.toList.drop addr.length with
  | [] => ((v6Parts s).bind sumParts).map fun n => (n, none)
  | _ :: scope =>
    if scope = [] ∨ scope.contains '%' then none
    else ((v6Parts (String.ofList addr)).bind sumParts).map fun n => (n, some (String.ofList scope))

/-- `ipaddress.ip_address(s)`; `none` where it raises `ValueError`. -/
def ipAddress (s : String) : Option Address :=
  if PyStr.contains '/' s then none
  else
    match parseV4 s with
    | some n => some (.v4 n)
    | none => (parseV6 s).map fun (n, scope) => .v6 n scope

example : ["10.0.0.1", "fd00::2", "::", "1::", "::1.2.3.4", "FD00:0:0::2%eth0"].all (ipAddress · |>.isSome) = true := by
  decide +kernel

example : ["", "10.0.0", "10.0.0.01", "256.1.1.1", ":1::", "1:2", "1::2::3", "fd00::2%", "1:2:3:4:5:6:7:8:9"].all
    (ipAddress · |>.isNone) = true := by
  decide +kernel

end IpAddress
