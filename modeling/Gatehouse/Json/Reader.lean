import Gatehouse.Json.Basic
import Gatehouse.Text.Number

namespace Gatehouse.Json

def isSpace (c : Char) : Bool := c == ' ' || c == '\n' || c == '\t' || c == '\r'

def skipSpace (cs : List Char) : List Char := cs.dropWhile isSpace

def literal? (word : List Char) (cs : List Char) : Option (List Char) :=
  if word.isPrefixOf cs then some (cs.drop word.length) else none

def unit? (cs : List Char) : Option (Nat × List Char) :=
  match cs with
  | a :: b :: c :: d :: rest => (Text.number? 16 0xffff [a, b, c, d]).map (·, rest)
  | _ => none

/-- A `\u` escape behind its `u`. Two surrogates make one character; one alone makes none. -/
def unicodeEscape? (cs : List Char) : Option (Char × List Char) :=
  match unit? cs with
  | none => none
  | some (hi, rest) =>
    if 0xd800 ≤ hi ∧ hi ≤ 0xdbff then
      match rest with
      | '\\' :: 'u' :: tail =>
        match unit? tail with
        | some (lo, tail) =>
          if 0xdc00 ≤ lo ∧ lo ≤ 0xdfff then
            some (Char.ofNat (0x10000 + (hi - 0xd800) * 0x400 + (lo - 0xdc00)), tail)
          else none
        | none => none
      | _ => none
    else if 0xdc00 ≤ hi ∧ hi ≤ 0xdfff then none
    else some (Char.ofNat hi, rest)

def simpleEscape? : Char → Option Char
  | '"' => some '"'
  | '\\' => some '\\'
  | '/' => some '/'
  | 'b' => some (Char.ofNat 8)
  | 'f' => some (Char.ofNat 12)
  | 'n' => some '\n'
  | 'r' => some '\r'
  | 't' => some '\t'
  | _ => none

/-- The rest of a string behind its opening quote; `seen` is what was read, last first. -/
def stringTail : Nat → List Char → List Char → Option (String × List Char)
  | 0, _, _ => none
  | fuel + 1, seen, cs =>
    match cs with
    | '"' :: rest => some (String.ofList seen.reverse, rest)
    | '\\' :: 'u' :: rest =>
      match unicodeEscape? rest with
      | some (c, rest) => stringTail fuel (c :: seen) rest
      | none => none
    | '\\' :: e :: rest =>
      match simpleEscape? e with
      | some c => stringTail fuel (c :: seen) rest
      | none => none
    | c :: rest => if c.toNat < 0x20 then none else stringTail fuel (c :: seen) rest
    | [] => none

def isNumberChar (c : Char) : Bool :=
  c.isDigit || c == '-' || c == '+' || c == '.' || c == 'e' || c == 'E'

def isWhole (digits : List Char) : Bool :=
  match digits with
  | [] => false
  | ['0'] => true
  | '0' :: _ => false
  | ds => ds.all Char.isDigit

def isFractionExponent (cs : List Char) : Bool :=
  let afterFraction := match cs with
    | '.' :: rest =>
      let digits := rest.takeWhile Char.isDigit
      if digits.isEmpty then none else some (rest.dropWhile Char.isDigit)
    | _ => some cs
  match afterFraction with
  | none => false
  | some [] => true
  | some (e :: rest) =>
    let digits := match rest with
      | s :: ds => if s == '+' || s == '-' then ds else rest
      | [] => rest
    (e == 'e' || e == 'E') && !digits.isEmpty && digits.all Char.isDigit

def numberOf? (cs : List Char) : Option Number :=
  let (negative, body) := match cs with
    | '-' :: rest => (true, rest)
    | _ => (false, cs)
  let whole := body.takeWhile Char.isDigit
  let tail := body.dropWhile Char.isDigit
  if !isWhole whole || !isFractionExponent tail then none
  else if !tail.isEmpty then some (.real (String.ofList cs))
  else
    match negative, Text.number? 10 (Nat.pow 2 64 - 1) whole with
    | false, some n => some (.unsigned n)
    | true, some n =>
      if 0 < n ∧ n ≤ Nat.pow 2 63 then some (.negative n) else some (.real (String.ofList cs))
    | _, none => some (.real (String.ofList cs))

mutual

/-- One value at the front, without white space before it (RFC 8259). Only a number without fraction
and exponent is whole, and one too large for 64 bits is not. -/
def value : Nat → List Char → Option (Json × List Char)
  | 0, _ => none
  | fuel + 1, cs =>
    match cs with
    | 'n' :: _ => (literal? ['n', 'u', 'l', 'l'] cs).map (Json.null, ·)
    | 't' :: _ => (literal? ['t', 'r', 'u', 'e'] cs).map (Json.bool true, ·)
    | 'f' :: _ => (literal? ['f', 'a', 'l', 's', 'e'] cs).map (Json.bool false, ·)
    | '"' :: rest => (stringTail (rest.length + 1) [] rest).map fun (s, tail) => (Json.str s, tail)
    | '[' :: rest =>
      match skipSpace rest with
      | ']' :: tail => some (.arr [], tail)
      | cs => (items fuel cs).map fun (xs, tail) => (Json.arr xs, tail)
    | '\x7b' :: rest =>
      match skipSpace rest with
      | '\x7d' :: tail => some (.obj [], tail)
      | cs => (members fuel cs).map fun (fs, tail) => (Json.obj fs, tail)
    | _ => (numberOf? (cs.takeWhile isNumberChar)).map (Json.number ·, cs.dropWhile isNumberChar)

def items : Nat → List Char → Option (List Json × List Char)
  | 0, _ => none
  | fuel + 1, cs =>
    match value fuel cs with
    | none => none
    | some (x, rest) =>
      match skipSpace rest with
      | ',' :: rest => (items fuel (skipSpace rest)).map fun (xs, tail) => (x :: xs, tail)
      | ']' :: tail => some ([x], tail)
      | _ => none

def members : Nat → List Char → Option (List (String × Json) × List Char)
  | 0, _ => none
  | fuel + 1, cs =>
    match cs with
    | '"' :: rest =>
      match stringTail (rest.length + 1) [] rest with
      | none => none
      | some (name, rest) =>
        match skipSpace rest with
        | ':' :: rest =>
          match value fuel (skipSpace rest) with
          | none => none
          | some (x, rest) =>
            match skipSpace rest with
            | ',' :: rest =>
              (members fuel (skipSpace rest)).map fun (fs, tail) => ((name, x) :: fs, tail)
            | '\x7d' :: tail => some ([(name, x)], tail)
            | _ => none
        | _ => none
    | _ => none

end

def parse? (text : String) : Option Json :=
  let cs := text.toList
  match value (cs.length + 1) (skipSpace cs) with
  | some (x, rest) => if (skipSpace rest).isEmpty then some x else none
  | none => none

end Gatehouse.Json
