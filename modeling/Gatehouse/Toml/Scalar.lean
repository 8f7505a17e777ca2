import Gatehouse.Text.Number
import Gatehouse.Toml.Basic

namespace Gatehouse.Toml

abbrev Reader (α : Type) := List Char → Option (α × List Char)

def isAscii (c : Char) : Bool := c.toNat < 0x80

/-- Characters that may stand in a comment, and, quotes and backslashes apart, in a string. -/
def isPrintable (c : Char) : Bool := c == '\t' || (0x20 ≤ c.toNat && c.toNat ≤ 0x7e) || !isAscii c

def isSpace (c : Char) : Bool := c == ' ' || c == '\t'

def skipSpace (cs : List Char) : List Char := cs.dropWhile isSpace

def newline? : List Char → Option (List Char)
  | '\n' :: rest => some rest
  | '\r' :: '\n' :: rest => some rest
  | _ => none

def escape? : Reader Char
  | 'b' :: rest => some (Char.ofNat 8, rest)
  | 't' :: rest => some ('\t', rest)
  | 'n' :: rest => some ('\n', rest)
  | 'f' :: rest => some (Char.ofNat 12, rest)
  | 'r' :: rest => some ('\r', rest)
  | '"' :: rest => some ('"', rest)
  | '\\' :: rest => some ('\\', rest)
  | 'u' :: rest => scalar 4 rest
  | 'U' :: rest => scalar 8 rest
  | _ => none
where
  /-- A Unicode scalar value in so many hexadecimal digits. -/
  scalar (digits : Nat) (cs : List Char) : Option (Char × List Char) :=
    match Text.number? 16 0x10ffff (cs.take digits) with
    | some n =>
      if cs.length < digits ∨ (0xd800 ≤ n ∧ n ≤ 0xdfff) then none
      else some (Char.ofNat n, cs.drop digits)
    | none => none

/-- The rest of a string in double quotes; `seen` is what was read, last first. -/
def basicTail : Nat → List Char → Reader String
  | 0, _, _ => none
  | fuel + 1, seen, cs =>
    match cs with
    | '"' :: rest => some (String.ofList seen.reverse, rest)
    | '\\' :: rest =>
      match escape? rest with
      | some (c, rest) => basicTail fuel (c :: seen) rest
      | none => none
    | c :: rest => if isPrintable c then basicTail fuel (c :: seen) rest else none
    | [] => none

def literalTail : Reader String := fun cs =>
  let body := cs.takeWhile fun c => isPrintable c && c != '\''
  match cs.drop body.length with
  | '\'' :: rest => some (String.ofList body, rest)
  | _ => none

/-- White space and line ends, skipped behind a backslash at the end of a line. -/
def skipBlankLines : Nat → List Char → List Char
  | 0, cs => cs
  | fuel + 1, cs =>
    let cs := skipSpace cs
    match newline? cs with
    | some rest => skipBlankLines fuel rest
    | none => cs

/-- Three quotes end a string of several lines; up to two more in front belong to it. -/
def closing? (quote : Char) (cs : List Char) : Option (List Char × List Char) :=
  let run := (cs.takeWhile (· == quote)).length
  if run < 3 then none
  else
    let inside := min (run - 3) 2
    some (List.replicate inside quote, cs.drop (inside + 3))

def longBasicTail : Nat → List Char → Reader String
  | 0, _, _ => none
  | fuel + 1, seen, cs =>
    match closing? '"' cs with
    | some (inside, rest) => some (String.ofList (seen.reverse ++ inside), rest)
    | none =>
      match newline? cs with
      | some rest => longBasicTail fuel ('\n' :: seen) rest
      | none =>
        match cs with
        | '\\' :: rest =>
          match newline? (skipSpace rest) with
          | some tail => longBasicTail fuel seen (skipBlankLines tail.length tail)
          | none =>
            match escape? rest with
            | some (c, rest) => longBasicTail fuel (c :: seen) rest
            | none => none
        | c :: rest => if isPrintable c then longBasicTail fuel (c :: seen) rest else none
        | [] => none

def longLiteralTail : Nat → List Char → Reader String
  | 0, _, _ => none
  | fuel + 1, seen, cs =>
    match closing? '\'' cs with
    | some (inside, rest) => some (String.ofList (seen.reverse ++ inside), rest)
    | none =>
      match newline? cs with
      | some rest => longLiteralTail fuel ('\n' :: seen) rest
      | none =>
        match cs with
        | c :: rest => if isPrintable c then longLiteralTail fuel (c :: seen) rest else none
        | [] => none

/-- A line end right behind the opening quotes is left out. -/
def skipFirstNewline (cs : List Char) : List Char := (newline? cs).getD cs

def shortString : Reader String
  | '"' :: rest => basicTail (rest.length + 1) [] rest
  | '\'' :: rest => literalTail rest
  | _ => none

def string : Reader String
  | '"' :: '"' :: '"' :: rest =>
    let rest := skipFirstNewline rest
    longBasicTail (rest.length + 1) [] rest
  | '\'' :: '\'' :: '\'' :: rest =>
    let rest := skipFirstNewline rest
    longLiteralTail (rest.length + 1) [] rest
  | cs => shortString cs

/-- Digits, between which single underscores may stand. -/
def digits (base : Nat) : Nat → Reader (List Nat)
  | 0, _ => none
  | fuel + 1, cs =>
    match cs with
    | [] => none
    | c :: rest =>
      match Text.digit? base c with
      | none => none
      | some d =>
        match rest with
        | '_' :: tail => (digits base fuel tail).map fun (ds, tail) => (d :: ds, tail)
        | e :: _ =>
          if (Text.digit? base e).isSome then
            (digits base fuel rest).map fun (ds, tail) => (d :: ds, tail)
          else some ([d], rest)
        | [] => some ([d], [])

def digitRun (base : Nat) : Reader (List Nat) := fun cs => digits base (cs.length + 1) cs

def sign : List Char → Bool × List Char
  | '-' :: rest => (true, rest)
  | '+' :: rest => (false, rest)
  | cs => (false, cs)

def decimal : Reader (Bool × List Nat) := fun cs =>
  let (negative, cs) := sign cs
  match cs with
  | '0' :: rest => some ((negative, [0]), rest)
  | _ => (digitRun 10 cs).map fun (ds, rest) => ((negative, ds), rest)

def fits (n : Int) : Option Int := if -(Nat.pow 2 63) ≤ n ∧ n < Nat.pow 2 63 then some n else none

def based (base : Nat) : Reader Int := fun cs => do
  let (ds, rest) ← digitRun base cs
  let n ← fits (Text.ofDigits base ds)
  return (n, rest)

def integer : Reader Int
  | '0' :: 'x' :: rest => based 16 rest
  | '0' :: 'o' :: rest => based 8 rest
  | '0' :: 'b' :: rest => based 2 rest
  | cs => do
    let ((negative, ds), rest) ← decimal cs
    let magnitude : Int := Text.ofDigits 10 ds
    let n ← fits (if negative then -magnitude else magnitude)
    return (n, rest)

def exponent : Reader (Bool × List Nat) := fun cs =>
  let (negative, cs) := sign cs
  (digitRun 10 cs).map fun (ds, rest) => ((negative, ds), rest)

/-- Whether digits times a power of ten round to no finite number of 64 bits. -/
def overflows (ds : List Nat) (negativeExponent : Bool) (exponent fraction : Nat) : Bool :=
  let m := Text.ofDigits 10 ds
  if m = 0 then false
  else if negativeExponent then
    let down := exponent + fraction
    if ds.length < down then false else Nat.pow 2 1024 - Nat.pow 2 970 ≤ m / Nat.pow 10 down
  else if ds.length + 400 < exponent then true
  else Nat.pow 2 1024 - Nat.pow 2 970 ≤ m * Nat.pow 10 exponent / Nat.pow 10 fraction

def floatNumber : Reader Unit := fun cs => do
  let ((negative, whole), rest) ← decimal cs
  let (fraction, rest) ← match rest with
    | '.' :: tail => digitRun 10 tail
    | 'e' :: _ => some ([], rest)
    | 'E' :: _ => some ([], rest)
    | _ => none
  let ((down, power), rest) ← match rest with
    | 'e' :: tail => exponent tail
    | 'E' :: tail => exponent tail
    | _ => some ((false, []), rest)
  if !negative && overflows (whole ++ fraction) down (Text.ofDigits 10 power) fraction.length then
    none
  else some ((), rest)

def specialFloat : Reader Unit := fun cs =>
  match (sign cs).2 with
  | 'i' :: 'n' :: 'f' :: rest => some ((), rest)
  | 'n' :: 'a' :: 'n' :: rest => some ((), rest)
  | _ => none

def fixed (count low high : Nat) : Reader Nat := fun cs =>
  match Text.number? 10 high (cs.take count) with
  | some n => if cs.length < count ∨ n < low then none else some (n, cs.drop count)
  | none => none

def daysInMonth (year month : Nat) : Nat :=
  if month = 2 then
    if year % 4 = 0 ∧ (year % 100 ≠ 0 ∨ year % 400 = 0) then 29 else 28
  else if month = 4 ∨ month = 6 ∨ month = 9 ∨ month = 11 then 30 else 31

def expect (c : Char) : Reader Unit
  | d :: rest => if d = c then some ((), rest) else none
  | [] => none

def date : Reader Unit := fun cs => do
  let (year, cs) ← fixed 4 0 9999 cs
  let ((), cs) ← expect '-' cs
  let (month, cs) ← fixed 2 1 12 cs
  let ((), cs) ← expect '-' cs
  let (_, cs) ← fixed 2 1 (daysInMonth year month) cs
  return ((), cs)

/-- A time of day. The last minute of a day may have a leap second. -/
def time : Reader Unit := fun cs => do
  let (_, cs) ← fixed 2 0 23 cs
  let ((), cs) ← expect ':' cs
  let (_, cs) ← fixed 2 0 59 cs
  let ((), cs) ← expect ':' cs
  let (_, cs) ← fixed 2 0 60 cs
  match cs with
  | '.' :: rest =>
    let (ds, tail) := Text.spanDigits 10 rest
    if ds.isEmpty then none else some ((), tail)
  | _ => some ((), cs)

def offset : Reader Unit
  | 'Z' :: rest => some ((), rest)
  | 'z' :: rest => some ((), rest)
  | c :: rest => do
    if c != '+' && c != '-' then none
    let (_, cs) ← fixed 2 0 23 rest
    let ((), cs) ← expect ':' cs
    let (_, cs) ← fixed 2 0 59 cs
    return ((), cs)
  | [] => none

def dateTail (cs : List Char) : List Char :=
  match cs with
  | c :: rest =>
    if c == 'T' || c == 't' || c == ' ' then
      match time rest with
      | some ((), tail) =>
        match offset tail with
        | some ((), tail) => tail
        | none => tail
      | none => cs
    else cs
  | [] => []

def dateTime : Reader Unit := fun cs =>
  match date cs with
  | some ((), rest) => some ((), dateTail rest)
  | none => time cs

def word? (word : List Char) (cs : List Char) : Option (List Char) :=
  if word.isPrefixOf cs then some (cs.drop word.length) else none

def scalar : Reader Toml := fun cs =>
  match cs with
  | [] => none
  | c :: _ =>
    if c == '"' || c == '\'' then (string cs).map fun (s, rest) => (.str s, rest)
    else if c == 't' then (word? ['t', 'r', 'u', 'e'] cs).map (.bool true, ·)
    else if c == 'f' then (word? ['f', 'a', 'l', 's', 'e'] cs).map (.bool false, ·)
    else
      match (dateTime cs).map fun (_, rest) => (Toml.datetime, rest) with
      | some r => some r
      | none =>
        match ((floatNumber cs).or (specialFloat cs)).map fun (_, rest) => (Toml.float, rest) with
        | some r => some r
        | none => (integer cs).map fun (n, rest) => (.int n, rest)

end Gatehouse.Toml
