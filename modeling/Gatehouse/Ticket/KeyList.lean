import Gatehouse.Base64
import Gatehouse.Text.Blank
import Gatehouse.Ticket.Key

namespace Gatehouse.Ticket

inductive MaterialError
  | empty
  | uneven (length : Nat)
  | notBase64 (error : Base64.DecodeError)
deriving Repr, DecidableEq

def MaterialError.message : MaterialError → String
  | .empty => "no key material"
  | .uneven n => s!"key material is {n} bytes, not a multiple of {keyLength}"
  | .notBase64 e => "keys are not valid base64: " ++ e.message

/-- The keys of a ring, newest first. The newest seals new tickets; there always is one. -/
structure KeyList where
  newest : Key
  older : List Key
deriving DecidableEq

namespace KeyList

def toList (keys : KeyList) : List Key := keys.newest :: keys.older

def ofList? : List Key → Option KeyList
  | [] => none
  | k :: ks => some ⟨k, ks⟩

def size (keys : KeyList) : Nat := keys.older.length + 1

def ofBytes (blob : Bytes) : Except MaterialError KeyList :=
  if blob.length % keyLength ≠ 0 then .error (.uneven blob.length)
  else
    match ofList? ((blob.chunks keyLength).filterMap Key.ofBytes?) with
    | some keys => .ok keys
    | none => .error .empty

/-- The keys in a Base64 text, which may have white space around it. -/
def ofBase64 (text : String) : Except MaterialError KeyList :=
  match Base64.decode (Bytes.ofString (String.ofList (Text.trim text.toList))) with
  | .ok blob => ofBytes blob
  | .error e => .error (.notBase64 e)

def toBytes (keys : KeyList) : Bytes := keys.toList.flatMap Key.secret

def toBase64 (keys : KeyList) : String := Base64.encodeText keys.toBytes

def sealWith (keys : KeyList) (iv state : Bytes) : Bytes := keys.newest.sealWith iv state

def open? (keys : KeyList) (ticket : Bytes) : Option Bytes :=
  keys.toList.findSome? fun k => k.open? ticket

/-- The first key that opens a ticket: its place, the key, and the state. -/
def find? (keys : KeyList) (ticket : Bytes) : Option (Nat × Key × Bytes) :=
  keys.toList.zipIdx.findSome? fun (k, i) => (k.open? ticket).map (i, k, ·)

def minter? (keys : KeyList) (ticket : Bytes) : Option Nat :=
  keys.toList.findIdx? fun k => k.name == ticket.take nameLength

/-- The newest key moves to the back, and the next one seals. -/
def shifted (keys : KeyList) : KeyList :=
  match keys.older with
  | [] => keys
  | k :: ks => ⟨k, ks ++ [keys.newest]⟩

/-- A fresh key in front of at most `max` keys in all, of which one at least stays. -/
def prepended (keys : KeyList) (fresh : Key) (max : Option Nat) : KeyList :=
  match max with
  | none => ⟨fresh, keys.toList⟩
  | some m => ⟨fresh, keys.toList.take (m - 1)⟩

@[simp] theorem toList_ne_nil (keys : KeyList) : keys.toList ≠ [] := by simp [toList]

@[simp] theorem length_toList (keys : KeyList) : keys.toList.length = keys.size := by
  simp [toList, size]

theorem toList_shifted (keys : KeyList) :
    keys.shifted.toList = keys.older ++ [keys.newest] := by
  unfold shifted toList
  split
  next h => simp [h]
  next h => simp [h]

theorem toList_prepended_none (keys : KeyList) (fresh : Key) :
    (keys.prepended fresh none).toList = fresh :: keys.toList := rfl

theorem toList_prepended_some (keys : KeyList) (fresh : Key) (m : Nat) :
    (keys.prepended fresh (some m)).toList = (fresh :: keys.toList).take (max m 1) := by
  simp only [prepended, toList]
  rcases m with _ | m
  · simp
  · simp

end KeyList
end Gatehouse.Ticket
