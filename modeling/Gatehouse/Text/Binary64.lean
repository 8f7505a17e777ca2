namespace Gatehouse.Text

def unitInLastPlace (n : Nat) : Nat := Nat.pow 2 (n.log2 + 1 - 53)

/-- The nearest number with 53 significant bits; of two equally near, the one whose last bit is
zero. -/
def roundBinary64 (n : Nat) : Nat :=
  let unit := unitInLastPlace n
  let low := n / unit
  let rest := n % unit
  if rest * 2 < unit ∨ (rest * 2 = unit ∧ low % 2 = 0) then low * unit else (low + 1) * unit

def readsAs (n value : Nat) : Bool := roundBinary64 n == value

/-- The multiples of `10 ^ zeros` next to a value that are read back as it, the nearer first. -/
def candidates (value zeros : Nat) : List Nat :=
  let step := Nat.pow 10 zeros
  let low := value / step * step
  let high := low + step
  let both := if value - low ≤ high - value then [low, high] else [high, low]
  both.filter fun n => readsAs n value

/-- The number with the most zeros at its end, and so the fewest digits, that is read back as the
value; at most `zeros` of them. -/
def fewestDigits (value : Nat) : Nat → Nat
  | 0 => value
  | zeros + 1 =>
    match candidates value (zeros + 1) with
    | n :: _ => n
    | [] => fewestDigits value zeros

/-- A whole number as binary floating point of 53 bits, written with the fewest digits that read
back. -/
def binary64Text (n : Nat) : String :=
  let value := roundBinary64 n
  if value < Nat.pow 2 53 then toString value else toString (fewestDigits value 19)

end Gatehouse.Text
