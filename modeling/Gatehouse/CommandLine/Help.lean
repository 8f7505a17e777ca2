import Gatehouse.CommandLine.Options

namespace Gatehouse.CommandLine

/-- A program, or one of its commands. -/
structure Page where
  about : String
  usage : String
  commands : List (String × String)
  options : List OptionSpec
deriving Repr, DecidableEq

def columns (rows : List (String × String)) : List String :=
  let width := (rows.map fun r => r.1.length).foldl max 0
  rows.map fun r => "  " ++ r.1.pushn ' ' (width - r.1.length + 2) ++ r.2

def placeholder (long : String) : String :=
  String.ofList (long.toList.map fun c => if c = '-' then '_' else c.toUpper)

def OptionSpec.row (o : OptionSpec) : String × String :=
  let letter := match o.short with
    | some c => "-" ++ c.toString ++ ", "
    | none => "    "
  let default := o.default.toList.map fun d => "[default: " ++ d ++ "]"
  (letter ++ "--" ++ o.long ++ " <" ++ placeholder o.long ++ ">",
    " ".intercalate ((if o.help.isEmpty then [] else [o.help]) ++ default))

def standardRows (hasVersion : Bool) : List (String × String) :=
  ("-h, --help", "Print help") :: if hasVersion then [("-V, --version", "Print version")] else []

def Page.text (p : Page) (hasVersion : Bool) : String :=
  let commands :=
    if p.commands.isEmpty then [] else "" :: "Commands:" :: columns p.commands
  "\n".intercalate ([p.about, "", "Usage: " ++ p.usage] ++ commands ++ ["", "Options:"] ++
    columns (p.options.map OptionSpec.row ++ standardRows hasVersion)) ++ "\n"

structure Exit where
  status : Nat
  stdout : String
  stderr : String
deriving Repr, DecidableEq

namespace Exit

def success (stdout : String) : Exit := ⟨0, stdout, ""⟩

def failure (description : String) : Exit := ⟨1, "", "Error: " ++ description ++ "\n"⟩

/-- A failure that the program does not foresee. -/
def abort (message : String) : Exit := ⟨101, "", message ++ "\n"⟩

def misuse : Exit := ⟨2, "", "error: see --help\n"⟩

end Exit
end Gatehouse.CommandLine
