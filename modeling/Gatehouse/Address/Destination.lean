import Gatehouse.Text.Number

namespace Gatehouse

def splitLastColon? (cs : List Char) : Option (List Char × List Char) :=
  let number := cs.reverse.takeWhile (· != ':')
  match cs.reverse.dropWhile (· != ':') with
  | _ :: host => some (host.reverse, number.reverse)
  | [] => none

/-- A host that is not empty, a colon, and a number of 16 bits: the form of every place to connect
to. -/
def isDestination (text : String) : Bool :=
  match splitLastColon? text.toList with
  | some (host, number) => !host.isEmpty && (Text.signedNumber? 65535 number).isSome
  | none => false

end Gatehouse
