import Gatehouse.Text.Number

namespace Gatehouse.CommandLine

inductive ValueKind
  | text
  /-- A path, which is not empty. -/
  | path
  /-- A whole number of 64 bits from 0 on. -/
  | number
deriving Repr, DecidableEq

structure OptionSpec where
  long : String
  short : Option Char
  kind : ValueKind
  help : String
  /-- The value it has when it is not given, if that is to be told. -/
  default : Option String
deriving Repr, DecidableEq

/-- What a value stands for. -/
inductive Value
  | text (s : String)
  | number (n : Nat)
deriving Repr, DecidableEq

inductive Stop
  | usage
  | help
  | version
deriving Repr, DecidableEq

def ValueKind.read : ValueKind → String → Except Stop Value
  | .text, s => .ok (.text s)
  | .path, s => if s.isEmpty then .error .usage else .ok (.text s)
  | .number, s =>
    match Text.signedNumber? (Nat.pow 2 64 - 1) s.toList with
    | some n => .ok (.number n)
    | none => .error .usage

/-- Values by the long names of their options. -/
abbrev Values := List (String × Value)

def Values.text? (values : Values) (name : String) : Option String :=
  match values.lookup name with
  | some (.text s) => some s
  | _ => none

def Values.number? (values : Values) (name : String) : Option Nat :=
  match values.lookup name with
  | some (.number n) => some n
  | _ => none

/-- Takes up a value, unless its option was given before. -/
def put (values : Values) (spec : OptionSpec) (value : String) : Except Stop Values :=
  if (values.lookup spec.long).isSome then .error .usage
  else do return values ++ [(spec.long, ← spec.kind.read value)]

/-- A value in an argument of its own starts with no dash, unless it is nothing else. -/
def isFree (argument : String) : Bool := argument == "-" || !argument.startsWith "-"

def splitEquals (cs : List Char) : List Char × Option (List Char) :=
  match cs.dropWhile (· != '=') with
  | [] => (cs, none)
  | _ :: value => (cs.takeWhile (· != '='), some value)

/-- Reads arguments into values: `--name value`, `--name=value`, `-n value`, `-nvalue` or
`-n=value`. Help is always there to be asked for, the version may be. -/
def read (specs : List OptionSpec) (hasVersion : Bool) (values : Values) :
    List String → Except Stop Values
  | [] => .ok values
  | argument :: rest =>
    let follow (spec : OptionSpec) : Except Stop Values :=
      match rest with
      | value :: rest =>
        if isFree value then do read specs hasVersion (← put values spec value) rest
        else .error .usage
      | [] => .error .usage
    match argument.toList with
    | '-' :: '-' :: body =>
      if body.isEmpty then if rest.isEmpty then .ok values else .error .usage
      else
        match splitEquals body with
        | (name, value) =>
          let name := String.ofList name
          match specs.find? fun o => o.long == name with
          | some spec =>
            match value with
            | some value => do
              read specs hasVersion (← put values spec (String.ofList value)) rest
            | none => follow spec
          | none =>
            if value.isSome then .error .usage
            else if name == "help" then .error .help
            else if name == "version" && hasVersion then .error .version
            else .error .usage
    | '-' :: letter :: body =>
      match specs.find? fun o => o.short == some letter with
      | some spec =>
        match body with
        | [] => follow spec
        | '=' :: value => do
          read specs hasVersion (← put values spec (String.ofList value)) rest
        | value => do read specs hasVersion (← put values spec (String.ofList value)) rest
      | none =>
        if letter == 'h' then .error .help
        else if letter == 'V' && hasVersion then .error .version
        else .error .usage
    | _ => .error .usage

end Gatehouse.CommandLine
