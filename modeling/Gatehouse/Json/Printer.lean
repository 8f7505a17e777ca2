import Gatehouse.Json.Basic

namespace Gatehouse.Json

def escape (c : Char) : List Char :=
  if c = '"' then ['\\', '"']
  else if c = '\\' then ['\\', '\\']
  else if c = '\n' then ['\\', 'n']
  else if c = '\r' then ['\\', 'r']
  else if c = '\t' then ['\\', 't']
  else if c.toNat = 8 then ['\\', 'b']
  else if c.toNat = 12 then ['\\', 'f']
  else if c.toNat < 0x20 then
    ['\\', 'u', '0', '0', Nat.digitChar (c.toNat / 16), Nat.digitChar (c.toNat % 16)]
  else [c]

def quoted (s : String) : String := String.ofList ('"' :: (s.toList.flatMap escape ++ ['"']))

def Number.text : Number → String
  | .unsigned n => toString n
  | .negative n => "-" ++ toString n
  | .real literal => literal

def bracketed (opening closing : String) (indent : Nat) (parts : List String) : String :=
  if parts.isEmpty then opening ++ closing
  else
    let margin (n : Nat) := "\n" ++ "".pushn ' ' (2 * n)
    opening ++ ",".intercalate (parts.map (margin (indent + 1) ++ ·)) ++ margin indent ++ closing

mutual

/-- One item or field to a line, two blanks to a level. -/
def pretty (indent : Nat) : Json → String
  | .null => "null"
  | .bool b => if b then "true" else "false"
  | .number n => n.text
  | .str s => quoted s
  | .arr xs => bracketed "[" "]" indent (prettyItems indent xs)
  | .obj fs => bracketed "\x7b" "\x7d" indent (prettyFields indent fs)

def prettyItems (indent : Nat) : List Json → List String
  | [] => []
  | x :: xs => pretty (indent + 1) x :: prettyItems indent xs

def prettyFields (indent : Nat) : List (String × Json) → List String
  | [] => []
  | f :: fs => (quoted f.1 ++ ": " ++ pretty (indent + 1) f.2) :: prettyFields indent fs

end

mutual

def compact : Json → String
  | .null => "null"
  | .bool b => if b then "true" else "false"
  | .number n => n.text
  | .str s => quoted s
  | .arr xs => "[" ++ ",".intercalate (compactItems xs) ++ "]"
  | .obj fs => "\x7b" ++ ",".intercalate (compactFields fs) ++ "\x7d"

def compactItems : List Json → List String
  | [] => []
  | x :: xs => compact x :: compactItems xs

def compactFields : List (String × Json) → List String
  | [] => []
  | f :: fs => (quoted f.1 ++ ":" ++ compact f.2) :: compactFields fs

end
end Gatehouse.Json
