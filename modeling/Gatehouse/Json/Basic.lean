namespace Gatehouse

/-- A whole number from 0 on that fits 64 bits, a whole number below 0 that does, or any other. -/
inductive Json.Number
  | unsigned (n : Nat)
  | negative (magnitude : Nat)
  | real (literal : String)
deriving Repr, DecidableEq

inductive Json
  | null
  | bool (b : Bool)
  | number (n : Json.Number)
  | str (s : String)
  | arr (items : List Json)
  | obj (fields : List (String × Json))
deriving Repr, BEq

namespace Json

def nat (n : Nat) : Json := .number (.unsigned n)

def ofOption {α : Type} (f : α → Json) : Option α → Json
  | some a => f a
  | none => .null

/-- A field of an object. Of two fields with one name the later counts. -/
def field? : Json → String → Option Json
  | .obj fields, name => (fields.reverse.find? fun f => f.1 == name).map Prod.snd
  | _, _ => none

mutual

/-- The same value with another text in place of each, names of fields included. -/
def mapText (f : String → String) : Json → Json
  | .null => .null
  | .bool b => .bool b
  | .number n => .number n
  | .str s => .str (f s)
  | .arr items => .arr (mapTextItems f items)
  | .obj fields => .obj (mapTextFields f fields)

def mapTextItems (f : String → String) : List Json → List Json
  | [] => []
  | x :: xs => mapText f x :: mapTextItems f xs

def mapTextFields (f : String → String) : List (String × Json) → List (String × Json)
  | [] => []
  | x :: xs => (f x.1, mapText f x.2) :: mapTextFields f xs

end

end Json
end Gatehouse
