import Gatehouse.Address.Ip
import Gatehouse.Text.Number

namespace Gatehouse

structure SocketAddress where
  ip : Ip
  portNumber : UInt16
deriving Repr, DecidableEq

namespace SocketAddress

def syntaxMessage : String := "invalid socket address syntax"

abbrev Reader (α : Type) := List Char → Option (α × List Char)

def char (c : Char) : Reader Unit
  | d :: rest => if d = c then some ((), rest) else none
  | [] => none

/-- Digits, as many as there are but at most `most`, standing for at most `limit`. -/
def number (base most limit : Nat) : Reader Nat := fun cs =>
  let (ds, rest) := Text.spanDigits base cs
  let n := Text.ofDigits base ds
  if 0 < ds.length ∧ ds.length ≤ most ∧ n ≤ limit then some (n, rest) else none

def decimal (limit : Nat) : Reader Nat := fun cs => number 10 cs.length limit cs

/-- At most three digits, without a zero in front of others. -/
def octet : Reader UInt8 := fun cs =>
  match number 10 3 255 cs with
  | some (n, rest) =>
    if cs.head? = some '0' ∧ rest.length + 1 < cs.length then none
    else some (UInt8.ofNat n, rest)
  | none => none

def dottedQuad : Reader (UInt8 × UInt8 × UInt8 × UInt8) := fun cs => do
  let (a, cs) ← octet cs
  let ((), cs) ← char '.' cs
  let (b, cs) ← octet cs
  let ((), cs) ← char '.' cs
  let (c, cs) ← octet cs
  let ((), cs) ← char '.' cs
  let (d, cs) ← octet cs
  return ((a, b, c, d), cs)

/-- The colon between groups; none stands before the first. -/
def separator (first : Bool) : Reader Unit := fun cs =>
  if first then some ((), cs) else char ':' cs

/-- Groups up to a limit, and whether a dotted quad ended them. A quad takes the place of two. -/
def groups (first : Bool) : Nat → List Char → (List UInt16 × Bool) × List Char
  | 0, cs => (([], false), cs)
  | limit + 1, cs =>
    match (if limit = 0 then none
        else (separator first cs).bind fun s => dottedQuad s.2) with
    | some ((a, b, c, d), rest) =>
      (([UInt16.ofNat (a.toNat * 256 + b.toNat), UInt16.ofNat (c.toNat * 256 + d.toNat)], true),
        rest)
    | none =>
      match (separator first cs).bind fun s => number 16 4 0xffff s.2 with
      | some (g, rest) =>
        let ((gs, quad), tail) := groups false limit rest
        ((UInt16.ofNat g :: gs, quad), tail)
      | none => (([], false), cs)

/-- Eight groups, or fewer with `::` for the zeros between them, which are one at least. -/
def v6 : Reader (List UInt16) := fun cs =>
  let ((front, quad), rest) := groups true 8 cs
  if front.length = 8 then some (front, rest)
  else if quad then none
  else
    match rest with
    | ':' :: ':' :: rest =>
      let ((back, _), rest) := groups true (7 - front.length) rest
      some (front ++ List.replicate (8 - front.length - back.length) 0 ++ back, rest)
    | _ => none

/-- The number behind the last colon, which says which service of the host is meant. -/
def service : Reader UInt16 := fun cs =>
  (decimal 65535 cs).map fun (n, rest) => (UInt16.ofNat n, rest)

def socketV4 : Reader SocketAddress := fun cs => do
  let ((a, b, c, d), cs) ← dottedQuad cs
  let ((), cs) ← char ':' cs
  let (p, cs) ← service cs
  return (⟨.v4 a b c d, p⟩, cs)

/-- A scope, which says where a local address is valid and is not kept. -/
def scope : List Char → Option (List Char)
  | '%' :: cs => (decimal (Nat.pow 2 32 - 1) cs).map Prod.snd
  | cs => some cs

def socketV6 : Reader SocketAddress := fun cs => do
  let ((), cs) ← char '[' cs
  let (gs, cs) ← v6 cs
  let cs ← scope cs
  let ((), cs) ← char ']' cs
  let ((), cs) ← char ':' cs
  let (p, cs) ← service cs
  return (⟨.v6 gs, p⟩, cs)

def parse? (text : String) : Option SocketAddress :=
  match (socketV4 text.toList).or (socketV6 text.toList) with
  | some (address, []) => some address
  | _ => none

end SocketAddress
end Gatehouse
