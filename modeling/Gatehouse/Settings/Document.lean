import Gatehouse.Json.Basic
import Gatehouse.Toml.Basic

namespace Gatehouse.Settings

inductive Document
  | null
  | flag (b : Bool)
  /-- A whole number where the language tells numbers from 0 on apart. -/
  | unsigned (n : Nat)
  | signed (n : Int)
  | text (s : String)
  /-- A value that no setting takes. -/
  | other
  | list (items : List Document)
  /-- Named values; of two with one name the first counts. -/
  | table (fields : List (String × Document))
deriving Repr, BEq

namespace Document

mutual

def ofJson : Json → Document
  | .null => .null
  | .bool b => .flag b
  | .number (.unsigned n) => .unsigned n
  | .number (.negative n) => .signed (-n)
  | .number (.real _) => .other
  | .str s => .text s
  | .arr items => .list (ofJsonItems items)
  | .obj fields => .table (ofJsonFields fields).reverse

def ofJsonItems : List Json → List Document
  | [] => []
  | x :: xs => ofJson x :: ofJsonItems xs

def ofJsonFields : List (String × Json) → List (String × Document)
  | [] => []
  | f :: fs => (f.1, ofJson f.2) :: ofJsonFields fs

end

mutual

/-- A date or a time is a table of which nothing is read. -/
def ofToml : Toml → Document
  | .str s => .text s
  | .int n => .signed n
  | .float => .other
  | .bool b => .flag b
  | .datetime => .table [("", .other)]
  | .array items => .list (ofTomlItems items)
  | .table _ entries => .table (ofTomlEntries entries)
  | .tables items => .list (ofTomlTables items)

def ofTomlItems : List Toml → List Document
  | [] => []
  | x :: xs => ofToml x :: ofTomlItems xs

def ofTomlEntries : List (String × Toml) → List (String × Document)
  | [] => []
  | e :: es => (e.1, ofToml e.2) :: ofTomlEntries es

def ofTomlTables : List (List (String × Toml)) → List Document
  | [] => []
  | t :: ts => .table (ofTomlEntries t) :: ofTomlTables ts

end

/-- What the languages of documents do differently. -/
structure Dialect where
  /-- Whether a value stands for no contents behind a name that takes none. -/
  isBare : Document → Bool
  /-- Whether values listed beyond the names of a section are passed over. -/
  allowsSurplus : Bool

/-- The values of a section. They may also be listed in the order of their names, the last ones
left out. -/
def section? (dialect : Dialect) (names : List String) :
    Document → Option (List (String × Document))
  | .table fields => some fields
  | .list items =>
    if items.length ≤ names.length ∨ dialect.allowsSurplus then some (names.zip items) else none
  | _ => none

def setting {α : Type} (fields : List (String × Document)) (name : String)
    (read : Document → Option α) (default : α) : Option α :=
  match fields.lookup name with
  | some d => read d
  | none => some default

def flag? : Document → Option Bool
  | .flag b => some b
  | _ => none

def text? : Document → Option String
  | .text s => some s
  | _ => none

def number? : Document → Option UInt64
  | .unsigned n => if n < Nat.pow 2 64 then some (UInt64.ofNat n) else none
  | .signed n => if 0 ≤ n ∧ n < Nat.pow 2 64 then some (UInt64.ofNat n.toNat) else none
  | _ => none

def orUnset {α : Type} (read : Document → Option α) : Document → Option (Option α)
  | .null => some none
  | d => (read d).map some

/-- One of a set of names: the name alone, or with what stands for no contents behind it. -/
def choice? {α : Type} (isBare : Document → Bool) (ofName? : String → Option α) :
    Document → Option α
  | .text s => ofName? s
  | .table [(s, d)] => if isBare d then ofName? s else none
  | _ => none

def isNull : Document → Bool
  | .null => true
  | _ => false

def isEmptyTable : Document → Bool
  | .table [] => true
  | _ => false

def isEmptyList : Document → Bool
  | .list [] => true
  | _ => false

def jsonDialect : Dialect := ⟨isNull, false⟩

def tomlDialect : Dialect := ⟨fun d => isEmptyTable d || isEmptyList d, true⟩

end Document
end Gatehouse.Settings
