namespace Gatehouse

inductive Ip
  | v4 (a b c d : UInt8)
  | v6 (groups : List UInt16)
deriving Repr, DecidableEq

namespace Ip

def dotted (a b c d : UInt8) : String := s!"{a.toNat}.{b.toNat}.{c.toNat}.{d.toNat}"

def embedded (hi lo : UInt16) : UInt8 × UInt8 × UInt8 × UInt8 :=
  let high (g : UInt16) := UInt8.ofNat (g.toNat / 256)
  let low (g : UInt16) := UInt8.ofNat g.toNat
  (high hi, low hi, high lo, low lo)

/-- The IPv4 address behind an address of `::ffff:0:0/96`. -/
def mapped? : List UInt16 → Option (UInt8 × UInt8 × UInt8 × UInt8)
  | [0, 0, 0, 0, 0, 0xffff, hi, lo] => some (embedded hi lo)
  | _ => none

def zerosAhead (groups : List UInt16) : Nat := (groups.takeWhile (· == 0)).length

/-- Start and length of the longest run of zero groups; the first of equal ones. -/
def longestZeros (groups : List UInt16) : Nat × Nat :=
  (List.range groups.length).foldl
    (fun best i =>
      let n := zerosAhead (groups.drop i)
      if best.2 < n then (i, n) else best) (0, 0)

def group (g : UInt16) : String := String.ofList (Nat.toDigits 16 g.toNat)

/-- Groups in hexadecimal, the longest run of at least two zeros left out (RFC 5952). -/
def groupsText (groups : List UInt16) : String :=
  let (start, n) := longestZeros groups
  let join (gs : List UInt16) := ":".intercalate (gs.map group)
  if n < 2 then join groups
  else join (groups.take start) ++ "::" ++ join (groups.drop (start + n))

def text : Ip → String
  | .v4 a b c d => dotted a b c d
  | .v6 groups =>
    match mapped? groups with
    | some (a, b, c, d) => "::ffff:" ++ dotted a b c d
    | none => groupsText groups

/-- Addresses of the machine itself, IPv4 ones mapped into IPv6 included. -/
def isLoopback : Ip → Bool
  | .v4 a _ _ _ => a == 127
  | .v6 groups =>
    match mapped? groups with
    | some (a, _, _, _) => a == 127
    | none => groups == [0, 0, 0, 0, 0, 0, 0, 1]

end Ip
end Gatehouse
