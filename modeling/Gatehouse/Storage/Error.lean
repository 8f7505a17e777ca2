import Gatehouse.Text.Literal

namespace Gatehouse.Storage

inductive Error
  | notFound
  | isDirectory
  | notDirectory
  | permissionDenied
  | noSpace
  | busy
  | nameTooLong
  | nulInName
  | notUtf8
deriving Repr, DecidableEq

namespace Error

/-- The system's number for it, if it comes from the system. -/
def code? : Error → Option Nat
  | .notFound => some 2
  | .isDirectory => some 21
  | .notDirectory => some 20
  | .permissionDenied => some 13
  | .noSpace => some 28
  | .busy => some 16
  | .nameTooLong => some 36
  | .nulInName => none
  | .notUtf8 => none

def kind : Error → String
  | .notFound => "NotFound"
  | .isDirectory => "IsADirectory"
  | .notDirectory => "NotADirectory"
  | .permissionDenied => "PermissionDenied"
  | .noSpace => "StorageFull"
  | .busy => "ResourceBusy"
  | .nameTooLong => "InvalidFilename"
  | .nulInName => "InvalidInput"
  | .notUtf8 => "InvalidData"

def text : Error → String
  | .notFound => "No such file or directory"
  | .isDirectory => "Is a directory"
  | .notDirectory => "Not a directory"
  | .permissionDenied => "Permission denied"
  | .noSpace => "No space left on device"
  | .busy => "Device or resource busy"
  | .nameTooLong => "File name too long"
  | .nulInName => "file name contained an unexpected NUL byte"
  | .notUtf8 => "stream did not contain valid UTF-8"

def message (e : Error) : String :=
  match e.code? with
  | some n => s!"{e.text} (os error {n})"
  | none => e.text

def describe (e : Error) : String :=
  match e.code? with
  | some n => "Os \x7b code: " ++ toString n ++ ", kind: " ++ e.kind ++ ", message: " ++
      Text.quoted e.text ++ " \x7d"
  | none => "Error \x7b kind: " ++ e.kind ++ ", message: " ++ Text.quoted e.text ++ " \x7d"

end Error
end Gatehouse.Storage
