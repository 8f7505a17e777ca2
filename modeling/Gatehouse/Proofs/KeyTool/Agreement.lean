import Gatehouse.KeyTool.Run
import Gatehouse.Proofs.Admission
import Gatehouse.Proofs.Ticket.Material
import Gatehouse.Proofs.Ticket.Sealing
import Gatehouse.Ticket.Issue

namespace Gatehouse

namespace Hex

theorem value?_digit : ∀ n < 16, value? (UInt8.ofNat (digit n).toNat) = some n := by decide

theorem digit_ascii : ∀ n < 16, (digit n).toNat < 128 := by decide

/-- The two digits of a byte. -/
def digits (b : UInt8) : List Char := [digit (b.toNat / 16), digit (b.toNat % 16)]

theorem ofString_encode (bs : Bytes) :
    Bytes.ofString (encode bs) = (bs.flatMap digits).map fun c => UInt8.ofNat c.toNat := by
  refine Bytes.ofString_ascii fun c hc => ?_
  obtain ⟨b, -, hc⟩ := List.mem_flatMap.mp hc
  have hb := b.toNat_lt
  rcases List.mem_pair.mp hc with rfl | rfl
  · exact digit_ascii _ (by omega)
  · exact digit_ascii _ (by omega)

theorem decodePairs_digits (bs : Bytes) (index : Nat) :
    decodePairs index ((bs.flatMap digits).map fun c => UInt8.ofNat c.toNat) = .ok bs := by
  induction bs generalizing index with
  | nil => rfl
  | cons b bs ih =>
    have hb := b.toNat_lt
    have hbyte : UInt8.ofNat (b.toNat / 16 * 16 + b.toNat % 16) = b := by
      rw [Nat.div_add_mod', UInt8.ofNat_toNat]
    simp only [List.flatMap_cons, digits, List.cons_append, List.nil_append, List.map_cons, decodePairs,
      value?_digit _ (show b.toNat / 16 < 16 by omega), value?_digit _ (show b.toNat % 16 < 16 by omega),
      hbyte]
    rw [show decodePairs (index + 2) _ = .ok bs from ih _]
    rfl

theorem decode_encode (bs : Bytes) : decode (Bytes.ofString (encode bs)) = .ok bs := by
  have heven : (Bytes.ofString (encode bs)).length % 2 ≠ 1 := by
    simp [ofString_encode, digits]
  rw [decode, if_neg heven, ofString_encode]
  exact decodePairs_digits bs 0

end Hex

theorem Base64.encodeText_inj {bs bs' : Bytes} : encodeText bs = encodeText bs' ↔ bs = bs' := by
  refine ⟨fun h => ?_, congrArg _⟩
  have hencode : encode bs = encode bs' := by rw [← ofString_encodeText, h, ofString_encodeText]
  exact Except.ok.inj ((decode_encode bs).symm.trans (hencode ▸ decode_encode bs'))

namespace Ticket.KeyList

/-- A key of the list opens a ticket, and none in front of it does. -/
structure Opener (keys : KeyList) (ticket : Bytes) (index : Nat) (key : Key) (state : Bytes) : Prop where
  place : keys.toList[index]? = some key
  opens : key.open? ticket = some state
  least : ∀ j < index, ∀ other, keys.toList[j]? = some other → other.open? ticket = none

/-- A search that goes along with the places finds the least of those that will do. -/
theorem findSome?_zipIdx_eq_some_iff {α β : Type} (f : α → Option β) {l : List α} {start place : Nat}
    {a : α} {b : β} :
    (l.zipIdx start).findSome? (fun p => (f p.1).map (p.2, p.1, ·)) = some (place, a, b) ↔
      ∃ i, place = start + i ∧ l[i]? = some a ∧ f a = some b ∧
        ∀ j < i, ∀ x, l[j]? = some x → f x = none := by
  induction l generalizing start with
  | nil => simp
  | cons x l ih =>
    simp only [List.zipIdx_cons, List.findSome?_cons]
    cases hx : f x with
    | some y =>
      have hfirst (i : Nat) (h : ∀ j < i, ∀ x', (x :: l)[j]? = some x' → f x' = none) : i = 0 :=
        Nat.eq_zero_of_not_pos fun hi => nomatch hx.symm.trans (h 0 hi x rfl)
      constructor
      · intro h
        simp only [Option.map_some, Option.some.injEq, Prod.mk.injEq] at h
        obtain ⟨rfl, rfl, rfl⟩ := h
        exact ⟨0, rfl, rfl, hx, fun j hj => absurd hj (Nat.not_lt_zero j)⟩
      · intro hall
        obtain ⟨i, rfl, ha, hb, hleast⟩ := hall
        obtain rfl := hfirst i hleast
        obtain rfl : x = a := Option.some.inj ha
        rw [← hx, hb]
        rfl
    | none =>
      simp only [Option.map_none, ih]
      constructor
      · intro hall
        obtain ⟨i, rfl, ha, hb, hleast⟩ := hall
        refine ⟨i + 1, by omega, ha, hb, fun j hj x' hx' => ?_⟩
        cases j with
        | zero =>
          obtain rfl : x = x' := Option.some.inj hx'
          exact hx
        | succ j => exact hleast j (Nat.lt_of_succ_lt_succ hj) x' hx'
      · intro hall
        obtain ⟨i, rfl, ha, hb, hleast⟩ := hall
        cases i with
        | zero =>
          obtain rfl : x = a := Option.some.inj ha
          exact nomatch hx.symm.trans hb
        | succ i =>
          exact ⟨i, by omega, ha, hb, fun j hj x' hx' => hleast (j + 1) (Nat.succ_lt_succ hj) x' hx'⟩

theorem find?_eq_some_iff {keys : KeyList} {ticket state : Bytes} {index : Nat} {key : Key} :
    keys.find? ticket = some (index, key, state) ↔ keys.Opener ticket index key state := by
  refine (findSome?_zipIdx_eq_some_iff (Key.open? · ticket)).trans ⟨?_, ?_⟩
  · intro hall
    obtain ⟨i, rfl, hplace, hopens, hleast⟩ := hall
    rw [Nat.zero_add]
    exact ⟨hplace, hopens, hleast⟩
  · intro hall
    obtain ⟨hplace, hopens, hleast⟩ := hall
    exact ⟨index, (Nat.zero_add index).symm, hplace, hopens, hleast⟩

/-- Whether the places are kept in mind makes no difference to what a ticket opens to. -/
theorem open?_eq_map_find? (keys : KeyList) (ticket : Bytes) :
    keys.open? ticket = (keys.find? ticket).map fun (_, _, state) => state := by
  have hforget : keys.toList = keys.toList.zipIdx.map Prod.fst := (List.zipIdx_map_fst 0 _).symm
  rw [open?, find?, List.map_findSome?, hforget, List.findSome?_map, ← hforget]
  congr 1
  funext ⟨key, i⟩
  simp [Function.comp_def]

theorem open?_eq_some_iff_opener {keys : KeyList} {ticket state : Bytes} :
    keys.open? ticket = some state ↔ ∃ index key, keys.Opener ticket index key state := by
  simp only [open?_eq_map_find?, Option.map_eq_some_iff, ← find?_eq_some_iff, Prod.exists]
  constructor
  · intro hall
    obtain ⟨index, key, _, hfind, rfl⟩ := hall
    exact ⟨index, key, hfind⟩
  · intro hall
    obtain ⟨index, key, hfind⟩ := hall
    exact ⟨index, key, state, hfind, rfl⟩

theorem Opener.newest {keys : KeyList} {iv state : Bytes} (hiv : iv.length = ivLength) :
    keys.Opener (keys.sealWith iv state) 0 keys.newest state :=
  ⟨rfl, keys.newest.open?_sealWith state hiv, fun j hj => absurd hj (Nat.not_lt_zero j)⟩

end Ticket.KeyList

namespace KeyTool
open Ticket

/-- The report on a ticket that a key opens. -/
def opened (index : Nat) (key : Key) (state : Bytes) : Json :=
  .obj [
    ("key_index", .nat index),
    ("key_name", .str key.nameText),
    ("state_base64", .str (Base64.encodeText state)),
    ("valid", .bool true)]

def refused : Json := .obj [("valid", .bool false)]

theorem verdict_of_opener {keys : KeyList} {ticket state : Bytes} {index : Nat} {key : Key}
    (h : keys.Opener ticket index key state) : verdict keys ticket = opened index key state := by
  rw [verdict, KeyList.find?_eq_some_iff.mpr h]
  rfl

theorem verdict_eq_refused_iff {keys : KeyList} {ticket : Bytes} :
    verdict keys ticket = refused ↔ keys.open? ticket = none := by
  rw [KeyList.open?_eq_map_find?, verdict]
  cases keys.find? ticket with
  | none => simp [refused]
  | some found => simp [refused]

/-- The report tells the state, but not the key: two keys may have one name. -/
theorem open?_of_verdict {keys : KeyList} {ticket state : Bytes} {index : Nat} {key : Key}
    (h : verdict keys ticket = opened index key state) : keys.open? ticket = some state := by
  rw [KeyList.open?_eq_map_find?]
  unfold verdict at h
  cases hfind : keys.find? ticket with
  | none => simp [hfind, opened] at h
  | some found =>
    simp only [hfind, opened, Json.obj.injEq, List.cons.injEq, Prod.mk.injEq, Json.str.injEq,
      Base64.encodeText_inj] at h
    exact congrArg some h.2.2.1.2

theorem judge_eq_pass_iff {doorman : Doorman} {raw ticket : Bytes} {parsed : Hello.Parsed}
    (hbypass : doorman.loopbackBypass = false) (hparse : Hello.parse raw = .ok parsed)
    (hfirst : parsed.hello.FirstTicket ticket) (keys : KeyList) (peer : Ip) :
    (doorman.judge keys peer raw).1 = .pass ↔ ∃ state, keys.open? ticket = some state ∧ state ≠ [] := by
  have hshows : ShowsTicket keys raw ↔ keys.Honour ticket := by
    constructor
    · intro hall
      obtain ⟨p, other, hp, hother, honoured⟩ := hall
      obtain rfl := Except.ok.inj (hparse.symm.trans hp)
      have hticket := Hello.extension?_eq_some_iff.mpr hfirst
      rw [Hello.extension?_eq_some_iff.mpr hother] at hticket
      exact Option.some.inj hticket ▸ honoured
    · exact fun honoured => ⟨parsed, ticket, hparse, hfirst, honoured⟩
  have hwaives : ¬ doorman.Waives peer := by simp [Doorman.Waives, hbypass]
  rw [(doorman.judge_sound keys peer raw).1.pass_iff, or_iff_right hwaives, hshows, KeyList.Honour,
    ← KeyList.open?_eq_some_cons_iff]
  constructor
  · intro hall
    obtain ⟨b, bs, hopen⟩ := hall
    exact ⟨b :: bs, hopen, List.cons_ne_nil b bs⟩
  · intro hall
    obtain ⟨state, hopen, hne⟩ := hall
    obtain ⟨b, bs, rfl⟩ := List.exists_cons_of_ne_nil hne
    exact ⟨b, bs, hopen⟩

theorem execute_verify {source : KeySource} {disk : Storage.Disk} {keys : KeyList}
    (hkeys : source.keys disk = .ok keys) (entropy : Entropy) {text : String} {ticket : Bytes}
    (htext : decodeHex text = .ok ticket) :
    execute (.verify source text) entropy disk = (.ok (printed (verdict keys ticket)), disk) := by
  simp only [execute, hkeys, htext]
  rfl

theorem execute_mint {source : KeySource} {disk : Storage.Disk} {keys : KeyList}
    (hkeys : source.keys disk = .ok keys) (entropy : Entropy) {text : String} {state : Bytes}
    (htext : decodeHex text = .ok state) :
    execute (.mint source text) entropy disk =
      (.ok (.success (line (Hex.encode (keys.sealWith (entropy.iv 0) state)))), disk) := by
  simp only [execute, hkeys, htext]
  rfl

theorem decodeHex_encode (bs : Bytes) : decodeHex (Hex.encode bs) = .ok bs := by
  rw [decodeHex, Hex.decode_encode]
  rfl

/-- With the same keys, whatever the hexadecimal text of a ticket, the tool reports on it what a ring makes
of it, together with the first key that opens it, and a hello that shows the ticket is let through if it is
reported to open to a state. What the tool mints it reports as opened by the newest key. -/
theorem reports_agree_on_tickets (ring : Ring) {source : KeySource} {disk : Storage.Disk}
    (hkeys : source.keys disk = .ok ring.keys) (entropy : Entropy) :
    (∀ ticket, ∃ text, decodeHex text = .ok ticket) ∧
    (∀ text ticket, decodeHex text = .ok ticket →
      execute (.verify source text) entropy disk = (.ok (printed (verdict ring.keys ticket)), disk)) ∧
    (∀ ticket state, ring.redeem? ticket = some state ↔ ∃ index key,
      ring.keys.Opener ticket index key state ∧ verdict ring.keys ticket = opened index key state) ∧
    (∀ ticket, ring.redeem? ticket = none ↔ verdict ring.keys ticket = refused) ∧
    (∀ (doorman : Doorman) peer raw parsed ticket, doorman.loopbackBypass = false →
      Hello.parse raw = .ok parsed → parsed.hello.FirstTicket ticket →
      ((doorman.judge ring.keys peer raw).1 = .pass ↔
        ∃ index key state, verdict ring.keys ticket = opened index key state ∧ state ≠ [])) ∧
    ∀ text state, decodeHex text = .ok state → (entropy.iv 0).length = ivLength → ∃ minted,
      execute (.mint source text) entropy disk = (.ok (.success (line minted)), disk) ∧
      ∀ later, execute (.verify source minted) later disk =
        (.ok (printed (opened 0 ring.keys.newest state)), disk) := by
  refine ⟨fun ticket => ⟨_, decodeHex_encode ticket⟩, fun _ _ => execute_verify hkeys entropy, ?_,
    fun _ => verdict_eq_refused_iff.symm, ?_, ?_⟩
  · intro ticket state
    refine KeyList.open?_eq_some_iff_opener.trans ⟨?_, ?_⟩
    · intro hall
      obtain ⟨index, key, h⟩ := hall
      exact ⟨index, key, h, verdict_of_opener h⟩
    · intro hall
      obtain ⟨index, key, h, -⟩ := hall
      exact ⟨index, key, h⟩
  · intro doorman peer raw parsed ticket hbypass hparse hfirst
    rw [judge_eq_pass_iff hbypass hparse hfirst]
    constructor
    · intro hall
      obtain ⟨state, hopen, hne⟩ := hall
      obtain ⟨index, key, h⟩ := KeyList.open?_eq_some_iff_opener.mp hopen
      exact ⟨index, key, state, verdict_of_opener h, hne⟩
    · intro hall
      obtain ⟨index, key, state, h, hne⟩ := hall
      exact ⟨state, open?_of_verdict h, hne⟩
  · intro text state htext hiv
    refine ⟨_, execute_mint hkeys entropy htext, fun later => ?_⟩
    rw [execute_verify hkeys later (decodeHex_encode _), verdict_of_opener (.newest hiv)]

theorem keys_text (keys : KeyList) (disk : Storage.Disk) :
    (KeySource.text keys.toBase64).keys disk = .ok keys := by
  have hblank : Text.Blank "" := nofun
  have htext := KeyList.ofBase64_around keys hblank hblank
  rw [String.empty_append, String.append_empty] at htext
  rw [KeySource.keys, htext]
  rfl

/-- One key stands in front of itself. -/
def twins : KeyList :=
  ⟨⟨List.replicate 32 1, rfl⟩, [⟨List.replicate 32 2, rfl⟩, ⟨List.replicate 32 1, rfl⟩]⟩

theorem reports_agree_on_tickets_of_twins :
    let source : KeySource := .text twins.toBase64
    let entropy : Entropy := ⟨fun _ => twins.newest, fun _ => List.replicate 16 0⟩
    let disk : Storage.Disk := ⟨[], []⟩
    source.keys disk = .ok twins ∧ ∃ minted,
      execute (.mint source "00ff") entropy disk = (.ok (.success (line minted)), disk) ∧
      execute (.verify source minted) entropy disk =
        (.ok (printed (opened 0 twins.newest [0, 255])), disk) := by
  intro source entropy disk
  have hkeys := keys_text twins disk
  have htext : decodeHex "00ff" = .ok [0, 255] := decodeHex_encode [0, 255]
  obtain ⟨-, -, -, -, -, hmint⟩ := reports_agree_on_tickets ⟨.inMemory, twins⟩ hkeys entropy
  obtain ⟨minted, hminted, hverify⟩ := hmint "00ff" [0, 255] htext rfl
  exact ⟨hkeys, minted, hminted, hverify entropy⟩

end KeyTool
end Gatehouse
