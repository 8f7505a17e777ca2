namespace Gatehouse

/-- How a table came about, which decides what may still be added to it. -/
inductive Toml.Origin
  /-- By a header of its own. -/
  | header
  /-- As part of the path of another table's header. -/
  | implied
  /-- As part of a dotted key. -/
  | dotted
  /-- Written out as a value; nothing can be added. -/
  | inline
deriving Repr, DecidableEq

/-- A TOML 1.0 document as a tree of values. -/
inductive Toml
  | str (s : String)
  | int (n : Int)
  | float
  | bool (b : Bool)
  | datetime
  | array (items : List Toml)
  | table (origin : Toml.Origin) (entries : List (String × Toml))
  /-- An array of tables, each begun by a header in double brackets. -/
  | tables (items : List (List (String × Toml)))
deriving Repr

namespace Toml

/-- The entries of a table, in the order in which they were added. -/
abbrev Entries := List (String × Toml)

def Entries.put (entries : Entries) (key : String) (value : Toml) : Entries :=
  if (entries.lookup key).isSome then
    entries.map fun e => if e.1 == key then (key, value) else e
  else entries ++ [(key, value)]

/-- Changes the table that a header path leads to. Tables that are missing on the way are implied;
an array of tables leads to its last one. -/
def descend (change : Entries → Option Entries) : List String → Entries → Option Entries
  | [], entries => change entries
  | key :: path, entries =>
    match entries.lookup key with
    | none => (descend change path []).map fun es => entries.put key (.table .implied es)
    | some (.table .inline _) => none
    | some (.table origin es) =>
      (descend change path es).map fun es => entries.put key (.table origin es)
    | some (.tables items) =>
      match items.getLast? with
      | some es => (descend change path es).map fun es =>
          entries.put key (.tables (items.dropLast ++ [es]))
      | none => none
    | some _ => none

/-- Begins the table under a key: a new one, or one that was only implied so far. -/
def openTable (key : String) (entries : Entries) : Option Entries :=
  match entries.lookup key with
  | none => some (entries.put key (.table .header []))
  | some (.table .implied es) => some (entries.put key (.table .header es))
  | some _ => none

def openArrayTable (key : String) (entries : Entries) : Option Entries :=
  match entries.lookup key with
  | none => some (entries.put key (.tables [[]]))
  | some (.tables items) => some (entries.put key (.tables (items ++ [[]])))
  | some _ => none

/-- Adds a value under a dotted key. Tables on the way have to come from dotted keys or header
paths, the last of them from a dotted key. -/
def insert (key : String) (value : Toml) : List String → Entries → Option Entries
  | [], entries =>
    if (entries.lookup key).isSome then none else some (entries.put key value)
  | first :: path, entries =>
    match entries.lookup first with
    | none => (insert key value path []).map fun es => entries.put first (.table .dotted es)
    | some (.table .dotted es) =>
      (insert key value path es).map fun es => entries.put first (.table .dotted es)
    | some (.table .implied es) =>
      if path.isEmpty then none
      else (insert key value path es).map fun es => entries.put first (.table .implied es)
    | some (.tables items) =>
      if path.isEmpty then none
      else
        match items.getLast? with
        | some es => (insert key value path es).map fun es =>
            entries.put first (.tables (items.dropLast ++ [es]))
        | none => none
    | some _ => none

inductive Statement
  | header (path : List String)
  | arrayHeader (path : List String)
  | assign (key : List String) (value : Toml)
deriving Repr

structure Draft where
  root : Entries
  current : List String

def Draft.add (draft : Draft) : Statement → Option Draft
  | .header path =>
    match path.getLast? with
    | some key => (descend (openTable key) path.dropLast draft.root).map (⟨·, path⟩)
    | none => none
  | .arrayHeader path =>
    match path.getLast? with
    | some key => (descend (openArrayTable key) path.dropLast draft.root).map (⟨·, path⟩)
    | none => none
  | .assign key value =>
    match key.getLast? with
    | some last => (descend (insert last value key.dropLast) draft.current draft.root).map
        (⟨·, draft.current⟩)
    | none => none

def ofStatements? (statements : List Statement) : Option Entries :=
  (statements.foldlM Draft.add ⟨[], []⟩).map Draft.root

def inlineEntries? (pairs : List (List String × Toml)) : Option Entries :=
  pairs.foldlM (fun entries pair =>
    match pair.1.getLast? with
    | some last => insert last pair.2 pair.1.dropLast entries
    | none => none) []

end Toml
end Gatehouse
