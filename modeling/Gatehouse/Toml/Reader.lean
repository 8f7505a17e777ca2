import Gatehouse.Toml.Scalar

namespace Gatehouse.Toml

def isBareKeyChar (c : Char) : Bool :=
  (isAscii c && c.isAlphanum) || c == '-' || c == '_'

def simpleKey : Reader String := fun cs =>
  match cs with
  | [] => none
  | c :: _ =>
    if c == '"' || c == '\'' then shortString cs
    else
      let name := cs.takeWhile isBareKeyChar
      if name.isEmpty then none else some (String.ofList name, cs.drop name.length)

/-- Values and keys may be nested less deep than this. -/
def depthLimit : Nat := 80

def keyParts : Nat → Reader (List String)
  | 0, _ => none
  | fuel + 1, cs =>
    match simpleKey cs with
    | none => none
    | some (part, rest) =>
      match skipSpace rest with
      | '.' :: tail =>
        (keyParts fuel (skipSpace tail)).map fun (parts, rest) => (part :: parts, rest)
      | rest => some ([part], rest)

def key : Reader (List String) := fun cs =>
  (keyParts (cs.length + 1) cs).filter fun k => k.1.length < depthLimit

def skipComment : List Char → List Char
  | '#' :: rest => rest.dropWhile isPrintable
  | cs => cs

/-- White space, comments and line ends, as they may stand between the items of an array. -/
def skipFiller : Nat → List Char → List Char
  | 0, cs => cs
  | fuel + 1, cs =>
    let cs := skipSpace cs
    match newline? (skipComment cs) with
    | some rest => skipFiller fuel rest
    | none => cs

def filler (cs : List Char) : List Char := skipFiller (cs.length + 1) cs

def items (value : Reader Toml) : Nat → Reader (List Toml)
  | 0, _ => none
  | fuel + 1, cs =>
    match filler cs with
    | ']' :: rest => some ([], rest)
    | cs =>
      match value cs with
      | none => none
      | some (x, rest) =>
        match filler rest with
        | ',' :: rest => (items value fuel rest).map fun (xs, rest) => (x :: xs, rest)
        | ']' :: rest => some ([x], rest)
        | _ => none

def assignment (value : Reader Toml) : Reader (List String × Toml) := fun cs =>
  match key cs with
  | some (k, '=' :: rest) => (value (skipSpace rest)).map fun (v, rest) => ((k, v), rest)
  | _ => none

def pairs (value : Reader Toml) : Nat → Reader (List (List String × Toml))
  | 0, _ => none
  | fuel + 1, cs =>
    match assignment value (skipSpace cs) with
    | none => none
    | some (p, rest) =>
      match skipSpace rest with
      | ',' :: rest => (pairs value fuel rest).map fun (ps, rest) => (p :: ps, rest)
      | '\x7d' :: rest => some ([p], rest)
      | _ => none

def value : Nat → Reader Toml
  | 0, cs => scalar cs
  | depth + 1, cs =>
    match cs with
    | '[' :: rest =>
      if depth = 0 then none
      else (items (value depth) (rest.length + 1) rest).map fun (xs, rest) => (.array xs, rest)
    | '\x7b' :: rest =>
      if depth = 0 then none
      else
        match skipSpace rest with
        | '\x7d' :: rest => some (.table .inline [], rest)
        | _ =>
          match pairs (value depth) (rest.length + 1) rest with
          | some (ps, rest) => (inlineEntries? ps).map fun es => (.table .inline es, rest)
          | none => none
    | _ => scalar cs

def statement : Reader Statement
  | '[' :: '[' :: rest =>
    match key (skipSpace rest) with
    | some (path, ']' :: ']' :: rest) => some (.arrayHeader path, rest)
    | _ => none
  | '[' :: rest =>
    match key (skipSpace rest) with
    | some (path, ']' :: rest) => some (.header path, rest)
    | _ => none
  | cs => (assignment (value depthLimit) cs).map fun (p, rest) => (.assign p.1 p.2, rest)

def statements : Nat → List Char → Option (List Statement)
  | 0, _ => none
  | fuel + 1, cs =>
    let cs := skipSpace cs
    let found := match skipComment cs with
      | [] => some ([], [])
      | rest =>
        match newline? rest with
        | some _ => some ([], rest)
        | none => (statement cs).map fun (s, rest) => ([s], skipComment (skipSpace rest))
    match found with
    | none => none
    | some (line, []) => some line
    | some (line, rest) =>
      match newline? rest with
      | some tail => (statements fuel tail).map (line ++ ·)
      | none => none

def byteOrderMark : Char := Char.ofNat 0xfeff

/-- The document a text holds. -/
def parse? (text : String) : Option Entries :=
  let cs := match text.toList with
    | c :: rest => if c = byteOrderMark then rest else c :: rest
    | [] => []
  (statements (cs.length + 1) cs).bind ofStatements?

end Gatehouse.Toml
