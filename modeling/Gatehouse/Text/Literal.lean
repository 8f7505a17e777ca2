import Gatehouse.Text.Unseen

namespace Gatehouse.Text

/-- A character in a literal with this quote; what would not show is escaped. -/
def escape (quote : Char) (c : Char) : List Char :=
  if c = quote ∨ c = '\\' then ['\\', c]
  else if c = '\n' then ['\\', 'n']
  else if c = '\r' then ['\\', 'r']
  else if c = '\t' then ['\\', 't']
  else if c = Char.ofNat 0 then ['\\', '0']
  else if isUnseen c then "\\u\x7b".toList ++ Nat.toDigits 16 c.toNat ++ ['\x7d']
  else [c]

def quoted (s : String) : String :=
  String.ofList ('"' :: (s.toList.flatMap (escape '"') ++ ['"']))

def quotedChar (c : Char) : String := String.ofList ('\'' :: (escape '\'' c ++ ['\'']))

end Gatehouse.Text
