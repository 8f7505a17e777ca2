namespace Gatehouse.Text

def digit? (base : Nat) (c : Char) : Option Nat :=
  let n := c.toNat
  let value :=
    if 48 ≤ n ∧ n ≤ 57 then some (n - 48)
    else if 97 ≤ n ∧ n ≤ 102 then some (n - 87)
    else if 65 ≤ n ∧ n ≤ 70 then some (n - 55)
    else none
  value.filter (· < base)

def ofDigits (base : Nat) (digits : List Nat) : Nat := digits.foldl (fun n d => n * base + d) 0

/-- A non-empty text of digits only, standing for at most `limit`. -/
def number? (base limit : Nat) (cs : List Char) : Option Nat :=
  if cs.isEmpty then none
  else (cs.mapM (digit? base)).bind fun ds =>
    let n := ofDigits base ds
    if n ≤ limit then some n else none

def signedNumber? (limit : Nat) : List Char → Option Nat
  | '+' :: cs => number? 10 limit cs
  | cs => number? 10 limit cs

def spanDigits (base : Nat) (cs : List Char) : List Nat × List Char :=
  match cs with
  | [] => ([], [])
  | c :: rest =>
    match digit? base c with
    | some d => let (ds, tail) := spanDigits base rest; (d :: ds, tail)
    | none => ([], cs)

end Gatehouse.Text
