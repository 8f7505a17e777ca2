import Gatehouse.Base64
import Gatehouse.Text.Literal
import Gatehouse.Text.Lossy

namespace Gatehouse.Pem

inductive Kind
  | certificate
  | publicKey
  | rsaPrivateKey
  | ecPrivateKey
  | privateKey
  | revocationList
  | certificateRequest
  | encryptedHello
deriving Repr, DecidableEq

namespace Kind

def all : List Kind :=
  [.certificate, .publicKey, .rsaPrivateKey, .ecPrivateKey, .privateKey, .revocationList,
    .certificateRequest, .encryptedHello]

def label : Kind → String
  | .certificate => "CERTIFICATE"
  | .publicKey => "PUBLIC KEY"
  | .rsaPrivateKey => "RSA PRIVATE KEY"
  | .ecPrivateKey => "EC PRIVATE KEY"
  | .privateKey => "PRIVATE KEY"
  | .revocationList => "X509 CRL"
  | .certificateRequest => "CERTIFICATE REQUEST"
  | .encryptedHello => "ECHCONFIG"

def ofLabel? (label : Bytes) : Option Kind := all.find? fun k => Bytes.ofString k.label == label

end Kind

structure Item where
  kind : Kind
  der : Bytes
deriving Repr, DecidableEq

def isLineEnd (b : UInt8) : Bool := b == 10 || b == 13

/-- The lines of a text with their ends. A line feed ends one, and so does a carriage return. -/
def lines : Bytes → List Bytes
  | [] => []
  | b :: rest =>
    if isLineEnd b then [b] :: lines rest
    else
      match lines rest with
      | [] => [[b]]
      | line :: more => (b :: line) :: more

inductive EncodingError
  | invalidCharacter (b : UInt8)
  /-- Padding before the last group. -/
  | prematurePadding
  | invalidTrailingPadding
deriving Repr, DecidableEq

def EncodingError.describe : EncodingError → String
  | .invalidCharacter b => s!"InvalidCharacter({b.toNat})"
  | .prematurePadding => "PrematurePadding"
  | .invalidTrailingPadding => "InvalidTrailingPadding"

/-- White space: the space, and everything from the tab to the carriage return. -/
def isBlank (b : UInt8) : Bool := b == 32 || (9 ≤ b && b ≤ 13)

/-- Looks at symbols in blocks of eight, `used` of the current block having been seen. Padding in a
block is premature as soon as another block begins. -/
def checkBlocks (used : Nat) (padded : Bool) : Bytes → Except EncodingError Unit
  | [] => .ok ()
  | b :: rest =>
    if b ≠ Base64.pad ∧ (Base64.value? b).isNone then .error (.invalidCharacter b)
    else if used = 8 ∧ padded then .error .prematurePadding
    else checkBlocks (if used = 8 then 1 else used + 1) (padded || b == Base64.pad) rest

/-- Whether a last group, of four symbols at most, is well formed: two symbols at least if there
are any, and padding that fills up all four places or is left out. -/
def isLastGroup (group : Bytes) : Bool :=
  let symbols := group.takeWhile (· != Base64.pad)
  group.isEmpty || (2 ≤ symbols.length && (group.drop symbols.length).all (· == Base64.pad) &&
    (symbols.length == group.length || group.length == 4))

/-- The bytes that a section's text stands for. White space is passed over, padding may be left
out, and the bits that belong to no byte do not matter. -/
def decode (text : Bytes) : Except EncodingError Bytes := do
  let symbols := text.filter fun b => !isBlank b
  checkBlocks 0 false symbols
  let start := symbols.length - Base64.tailLength symbols.length
  if Base64.pad ∈ symbols.take start then throw .prematurePadding
  if !isLastGroup (symbols.drop start) then throw .invalidTrailingPadding
  return Base64.decodeValues (symbols.filterMap Base64.value?)

def opening : Bytes := Bytes.ofString "-----BEGIN "

def dash : UInt8 := 45

inductive Mark
  | none
  | opens (label : Bytes)
  | malformed
deriving Repr, DecidableEq

/-- A line that opens a section ends in exactly five dashes; blanks and line ends among and behind
them do not count. -/
def mark (line : Bytes) : Mark :=
  if !opening.isPrefixOf line then .none
  else
    let trail := line.reverse.takeWhile fun b => b == dash || b == 32 || isLineEnd b
    if trail.countP (· == dash) ≠ 5 then .malformed
    else
      let behind := (trail.reverse.dropWhile (· != dash)).length
      .opens ((line.take (line.length - behind)).drop opening.length)

def closing (label : Bytes) : Bytes :=
  Bytes.ofString "-----END " ++ label ++ Bytes.ofString "-----"

/-- An open section: its label, and the lines in it, the last first. -/
structure Section where
  label : Bytes
  collected : List Bytes
deriving Repr, DecidableEq

inductive Fault
  /-- The file ends inside a section. -/
  | unended (label : Bytes)
  | badOpening (line : Bytes)
  | notBase64 (error : EncodingError)
deriving Repr, DecidableEq

def Fault.message : Fault → String
  | .unended label => "section end " ++ Text.quoted (Text.lossy label) ++ " missing"
  | .badOpening line => "illegal section start: " ++ Text.quoted (Text.lossy line)
  | .notBase64 e => e.describe

/-- The items up to the end or to the first fault, and the fault. A line that opens a section
inside another gives that one a new label. -/
def scan (current : Option Section) : List Bytes → List Item × Option Fault
  | [] => ([], current.map fun s => .unended s.label)
  | line :: rest =>
    match mark line, current with
    | .malformed, _ => ([], some (.badOpening line))
    | .opens label, _ => scan (some ⟨label, (current.map Section.collected).getD []⟩) rest
    | .none, none => scan none rest
    | .none, some s =>
      if (closing s.label).isPrefixOf line then
        match Kind.ofLabel? s.label with
        | none => scan none rest
        | some kind =>
          match decode s.collected.reverse.flatten with
          | .error e => ([], some (.notBase64 e))
          | .ok der => let (items, fault) := scan none rest; (⟨kind, der⟩ :: items, fault)
      else scan (some { s with collected := line :: s.collected }) rest

/-- The items of a file, each between a line `-----BEGIN label-----` and a line that starts with
`-----END label-----`. What stands outside says nothing. -/
def items (text : Bytes) : List Item × Option Fault := scan none (lines text)

end Gatehouse.Pem
