import Gatehouse.Proofs.Hello.Grammar
import Mathlib.Logic.Function.Iterate

namespace Gatehouse.Hello
open Bytes

variable {message raw : Bytes} {e : Error}

/-- The joining is over, or goes on with the message so far and the bytes behind its last record. -/
inductive Progress
  | finished (result : Except Error (Bytes × Bytes))
  | going (message raw : Bytes)

namespace Progress

/-- One more record. -/
def round : Progress → Progress
  | .finished result => .finished result
  | .going message raw =>
    match takeRecord raw with
    | .error e => .finished (.error e)
    | .ok (payload, rest) =>
      match announced? (message ++ payload) with
      | none => .going (message ++ payload) rest
      | some needed =>
        if (message ++ payload).length < needed then .going (message ++ payload) rest
        else if needed < (message ++ payload).length then .finished (.error (.trailing .handshakeRecord))
        else .finished (.ok (message ++ payload, rest))

/-- What it will come to. -/
def result : Progress → Except Error (Bytes × Bytes)
  | .finished result => result
  | .going message raw => reassemble message raw

/-- A bound on the rounds to come: no record is shorter than its header. -/
def bound : Progress → Nat
  | .finished _ => 0
  | .going _ raw => raw.length / 5 + 1

theorem result_round (p : Progress) : p.round.result = p.result := by
  cases p with
  | finished result => rfl
  | going message raw =>
    change _ = reassemble message raw
    rw [round]
    cases htake : takeRecord raw with
    | error e => exact (reassemble_of_error htake).symm
    | ok p =>
      obtain ⟨payload, rest⟩ := p
      rw [reassemble_of_ok htake]
      dsimp only
      cases announced? (message ++ payload) with
      | none => rfl
      | some needed =>
        dsimp only
        by_cases hshort : (message ++ payload).length < needed
        · rw [if_pos hshort, if_pos hshort]
          rfl
        · rw [if_neg hshort, if_neg hshort]
          split <;> rfl

theorem bound_round (p : Progress) : p.round.bound ≤ p.bound - 1 := by
  cases p with
  | finished result => exact Nat.zero_le _
  | going message raw =>
    rw [round]
    cases htake : takeRecord raw with
    | error e => exact Nat.zero_le _
    | ok p =>
      obtain ⟨payload, rest⟩ := p
      obtain ⟨f, -, -, rfl⟩ := takeRecord_eq_ok_iff.mp htake
      have hrest : rest.length / 5 + 1 ≤ (f.bytes ++ rest).length / 5 := by
        simp only [Fragment.bytes, List.length_append, List.length_cons, length_prefixed16]
        omega
      dsimp only
      split
      · exact hrest
      · split
        · exact hrest
        · split <;> exact Nat.zero_le _

theorem iterate_round (n : Nat) (p : Progress) (h : p.bound ≤ n) : round^[n] p = .finished p.result := by
  induction n generalizing p with
  | zero =>
    cases p with
    | finished result => rfl
    | going message raw => exact absurd h (Nat.not_succ_le_zero _)
  | succ n ih =>
    have hround := p.bound_round
    rw [Function.iterate_succ_apply, ih p.round (by omega), result_round]

end Progress

/-- A record that is not there in full or not to be taken. -/
inductive Refused : Bytes → Error → Prop
  | header {tail : Bytes} (short : tail.length < 5) : Refused tail .incomplete
  | content {kind : UInt8} (major minor hi lo : UInt8) (rest : Bytes)
      (other : kind ≠ handshakeContent) :
      Refused (kind :: major :: minor :: hi :: lo :: rest) (.notHandshake kind)
  | size (major minor : UInt8) {hi lo : UInt8} (rest : Bytes) (large : maxPayload < be16 hi lo) :
      Refused (handshakeContent :: major :: minor :: hi :: lo :: rest) (.recordTooLarge (be16 hi lo))
  | payload (major minor : UInt8) {hi lo : UInt8} {rest : Bytes} (fits : be16 hi lo ≤ maxPayload)
      (short : rest.length < be16 hi lo) :
      Refused (handshakeContent :: major :: minor :: hi :: lo :: rest) .incomplete

theorem takeRecord_eq_error_iff : takeRecord raw = .error e ↔ Refused raw e := by
  constructor
  · intro h
    unfold takeRecord at h
    split at h
    next kind major minor hi lo rest =>
      dsimp only at h
      split at h
      next hkind =>
        obtain rfl := Except.error.inj h
        exact .content major minor hi lo rest hkind
      next hkind =>
        obtain rfl := Decidable.not_not.mp hkind
        split at h
        next hlarge =>
          obtain rfl := Except.error.inj h
          exact .size major minor rest hlarge
        next hfits =>
          split at h
          next hshort =>
            obtain rfl := Except.error.inj h
            exact .payload major minor (Nat.le_of_not_lt hfits) hshort
          next => contradiction
    next hshort =>
      obtain rfl := Except.error.inj h
      refine .header ?_
      match raw, hshort with
      | [], _ | [_], _ | [_, _], _ | [_, _, _], _ | [_, _, _, _], _ => simp
      | kind :: major :: minor :: hi :: lo :: rest, hshort =>
        exact absurd rfl (hshort kind major minor hi lo rest)
  · intro h
    cases h with
    | header hshort =>
      match raw, hshort with
      | [], _ | [_], _ | [_, _], _ | [_, _, _], _ | [_, _, _, _], _ => rfl
    | content major minor hi lo rest hother => rw [takeRecord, if_pos hother]
    | size major minor rest hlarge => simp [takeRecord, hlarge]
    | payload major minor hfits hshort => simp [takeRecord, hshort, Nat.not_lt.mpr hfits]

/-- Records behind `message` that are taken one after the other and leave it unfinished. -/
inductive Unfinished : Bytes → List Fragment → Prop
  | nil (message : Bytes) : Unfinished message []
  | cons {message : Bytes} {f : Fragment} {fs : List Fragment} (fits : f.payload.length ≤ maxPayload)
      (pending : Pending (message ++ f.payload)) (tail : Unfinished (message ++ f.payload) fs) :
      Unfinished message (f :: fs)

/-- Why the joining cannot go on behind `message`: the next record is refused, or holds more than the rest
of the message. -/
inductive Offends (message : Bytes) : Bytes → Error → Prop
  | refused {tail : Bytes} {e : Error} (h : Refused tail e) : Offends message tail e
  | surplus (f : Fragment) (rest : Bytes) {needed : Nat} (fits : f.payload.length ≤ maxPayload)
      (announced : announced? (message ++ f.payload) = some needed)
      (more : needed < (message ++ f.payload).length) :
      Offends message (f.bytes ++ rest) (.trailing .handshakeRecord)

theorem reassemble_of_offends (h : Offends message raw e) : reassemble message raw = .error e := by
  cases h with
  | refused h => exact reassemble_of_error (takeRecord_eq_error_iff.mpr h)
  | surplus f rest hfits hannounced hmore =>
    rw [reassemble_of_ok (takeRecord_bytes f hfits rest), hannounced]
    dsimp only
    rw [if_neg (Nat.not_lt_of_lt hmore), if_pos hmore]

theorem reassemble_eq_error_iff : reassemble message raw = .error e ↔
    ∃ fs tail, raw = Fragment.wire fs ++ tail ∧ Unfinished message fs ∧
      Offends (message ++ Fragment.joined fs) tail e := by
  constructor
  · intro h
    fun_induction reassemble message raw with
    | case1 message raw cause hcause =>
      obtain rfl := Except.error.inj h
      exact ⟨[], raw, rfl, .nil message, .refused (takeRecord_eq_error_iff.mp hcause)⟩
    | case2 message raw payload rest htake joined hunknown ih =>
      obtain ⟨f, rfl, hfits, rfl⟩ := takeRecord_eq_ok_iff.mp htake
      obtain ⟨fs, tail, rfl, hfs, hoffends⟩ := ih h
      have hpending : Pending joined := by simp [Pending, hunknown]
      exact ⟨f :: fs, tail, by simp, .cons hfits hpending hfs, by simpa [joined] using hoffends⟩
    | case3 message raw payload rest htake joined needed hneeded hshort ih =>
      obtain ⟨f, rfl, hfits, rfl⟩ := takeRecord_eq_ok_iff.mp htake
      obtain ⟨fs, tail, rfl, hfs, hoffends⟩ := ih h
      have hpending : Pending joined := by simpa [Pending, hneeded] using hshort
      exact ⟨f :: fs, tail, by simp, .cons hfits hpending hfs, by simpa [joined] using hoffends⟩
    | case4 message raw payload rest htake joined needed hneeded hshort hlong =>
      obtain rfl := Except.error.inj h
      obtain ⟨f, rfl, hfits, rfl⟩ := takeRecord_eq_ok_iff.mp htake
      refine ⟨[], _, rfl, .nil message, ?_⟩
      rw [Fragment.joined_nil, List.append_nil]
      exact .surplus f rest hfits hneeded hlong
    | case5 => contradiction
  · intro hall
    obtain ⟨fs, tail, rfl, hfs, hoffends⟩ := hall
    induction hfs with
    | nil message =>
      rw [Fragment.joined_nil, List.append_nil] at hoffends
      exact reassemble_of_offends hoffends
    | cons hfits hpending _ ih =>
      rw [Fragment.joined_cons, ← List.append_assoc] at hoffends
      rw [Fragment.wire_cons, List.append_assoc,
        reassemble_of_pending (takeRecord_bytes _ hfits _) hpending]
      exact ih hoffends

/-- What can be wrong with records. -/
def Error.ofRecords : Error → Bool
  | .incomplete | .notHandshake _ | .recordTooLarge _ | .trailing .handshakeRecord => true
  | _ => false

/-- What can be wrong with the body of a message that is there in full. -/
def Error.ofBody : Error → Bool
  | .truncated .handshakeType | .truncated .handshakeLength | .truncated .handshakeBody => false
  | .truncated _ | .oversized _ | .trailing .clientHello => true
  | _ => false

theorem Offends.ofRecords (h : Offends message raw e) : e.ofRecords = true := by
  cases h with
  | refused h => cases h <;> rfl
  | surplus => rfl

/-- Whatever goes wrong is wrong with the body. -/
def BlamesBody {α : Type} (x : Except Error α) : Prop := ∀ e, x = .error e → e.ofBody = true

section BlamesBody
variable {α β : Type} {x : Except Error α} {part : Part} {bs : Bytes}

theorem BlamesBody.bind {f : α → Except Error β} (hx : BlamesBody x) (hf : ∀ a, BlamesBody (f a)) :
    BlamesBody (x >>= f) := by
  cases x with
  | error fault =>
    intro e h
    exact hx e (congrArg Except.error (Except.error.inj h))
  | ok a => exact hf a

theorem BlamesBody.check {c : Prop} [Decidable c] {f : β → Except Error α}
    (he : e.ofBody = true) (hx : BlamesBody x) :
    BlamesBody (if c then throw e >>= f else x) := by
  split
  · intro fault h
    exact Except.error.inj h ▸ he
  · exact hx

theorem BlamesBody.ok (a : α) : BlamesBody (.ok a) := fun _ h => nomatch h

theorem BlamesBody.error (he : e.ofBody = true) : BlamesBody (.error e : Except Error α) :=
  fun _ h => Except.error.inj h ▸ he

theorem blamesBody_take (n : Nat) (h : (Error.truncated part).ofBody = true) :
    BlamesBody (take n part bs) := by
  unfold take
  split
  · exact .ok _
  · exact .error h

theorem blamesBody_byte (h : (Error.truncated part).ofBody = true) : BlamesBody (byte part bs) := by
  unfold byte
  split
  · exact .ok _
  · exact .error h

theorem blamesBody_number16 (h : (Error.truncated part).ofBody = true) :
    BlamesBody (number16 part bs) := by
  unfold number16
  split
  · exact .ok _
  · exact .error h

theorem blamesBody_block8 (h : (Error.truncated part).ofBody = true) :
    BlamesBody (block8 part bs) :=
  (blamesBody_byte h).bind fun (n, _) => blamesBody_take n.toNat h

theorem blamesBody_block16 (h : (Error.truncated part).ofBody = true) :
    BlamesBody (block16 part bs) :=
  (blamesBody_number16 h).bind fun (n, _) => blamesBody_take n h

theorem blamesBody_extensions (bs : Bytes) : BlamesBody (extensions bs) := by
  fun_induction extensions bs with
  | case1 => exact .ok _
  | case2 bs hne e htake =>
    have hfirst : BlamesBody (takeExtension bs) :=
      (blamesBody_number16 rfl).bind fun _ => (blamesBody_block16 rfl).bind fun _ => .ok _
    exact .error (hfirst e htake)
  | case3 bs hne x rest htake ih => exact ih.bind fun _ => .ok _

theorem blamesBody_finalExtensions (bs : Bytes) : BlamesBody (finalExtensions bs) := by
  unfold finalExtensions
  split
  · exact .ok _
  · refine (blamesBody_block16 rfl).bind fun (block, rest) =>
      (blamesBody_extensions block).bind fun _ => ?_
    split
    · exact .ok _
    · exact .error rfl

theorem blamesBody_parseBody (body : Bytes) : BlamesBody (parseBody body) :=
  (blamesBody_number16 rfl).bind fun _ => (blamesBody_take 32 rfl).bind fun _ =>
    (blamesBody_block8 rfl).bind fun _ => .check rfl <|
      (blamesBody_block16 rfl).bind fun _ => .check rfl <|
        (blamesBody_block8 rfl).bind fun _ => (blamesBody_finalExtensions _).bind fun _ => .ok _

end BlamesBody

theorem parse_of_error (h : reassemble [] raw = .error e) : parse raw = .error e := by
  rw [parse, h]
  rfl

/-- The next stage is given all of the message. -/
theorem parse_of_ok {rest : Bytes} (h : reassemble [] raw = .ok (message, rest)) :
    parse raw = (parseMessage message).map
      fun hello => ⟨hello, raw.take (raw.length - rest.length), rest⟩ := by
  rw [parse, h]
  simp only [bind, Except.bind]
  cases parseMessage message <;> rfl

/-- A message that was joined: four bytes that say its type and the length of its body, and the body. -/
theorem exists_body_of_complete (h : Complete message) : ∃ kind a b c body,
    message = kind :: a :: b :: c :: body ∧ body.length = be24 a b c := by
  unfold Complete announced? at h
  split at h
  · rename_i kind a b c body
    simp only [Option.some.injEq, List.length_cons] at h
    exact ⟨kind, a, b, c, body, rfl, by omega⟩
  · contradiction

theorem parseMessage_of_body {kind a b c : UInt8} {body : Bytes} (h : body.length = be24 a b c) :
    parseMessage (kind :: a :: b :: c :: body) =
      if kind = clientHelloType then parseBody body else .error (.notClientHello kind) := by
  have hlen : body.length < 16777216 := h ▸ be24_lt a b c
  have hbytes : ofNat24 body.length = [a, b, c] := by rw [h, ofNat24_be24]
  rw [← parseMessage_complete hlen, hbytes]
  rfl

/-- What the joining hands on is all there and is looked at from its first byte to its last. -/
theorem whole_of_reassemble {rest : Bytes} (h : reassemble [] raw = .ok (message, rest)) :
    ∃ n fs kind a b c body, n ≤ raw.length ∧ raw.take n = Fragment.wire fs ∧ raw.drop n = rest ∧
      Carries fs message ∧ message = kind :: a :: b :: c :: body ∧
      message.length = 4 + be24 a b c ∧
      parse raw = if kind = clientHelloType then (parseBody body).map (⟨·, raw.take n, rest⟩)
        else .error (.notClientHello kind) := by
  obtain ⟨fs, hfs, hraw⟩ := reassemble_eq_ok_iff.mp h
  obtain ⟨hcarries, hcomplete⟩ := continues_nil_iff.mp hfs
  obtain ⟨kind, a, b, c, body, hmessage, hbody⟩ := exists_body_of_complete hcomplete
  have hn : raw.length - rest.length = (Fragment.wire fs).length := by
    rw [hraw, List.length_append, Nat.add_sub_cancel]
  refine ⟨raw.length - rest.length, fs, kind, a, b, c, body, Nat.sub_le _ _, ?_, ?_, hcarries,
    hmessage, ?_, ?_⟩
  · rw [hn, hraw, List.take_left]
  · rw [hn, hraw, List.drop_left]
  · rw [hmessage, ← hbody]
    simp only [List.length_cons]
    omega
  · rw [parse_of_ok h, hmessage, parseMessage_of_body hbody]
    split <;> rfl

/-- A message that is all there can be no hello or have something wrong with its body. -/
theorem Error.of_whole {kind : UInt8} {body : Bytes} {f : ClientHello → Parsed}
    (h : (if kind = clientHelloType then (parseBody body).map f else .error (.notClientHello kind)) =
      .error e) : e = .notClientHello kind ∨ e.ofBody = true := by
  split at h
  · cases hbody : parseBody body with
    | error fault =>
      rw [hbody] at h
      obtain rfl : fault = e := Except.error.inj h
      exact .inr (blamesBody_parseBody body fault hbody)
    | ok hello =>
      rw [hbody] at h
      contradiction
  · exact .inl (Except.error.inj h).symm

theorem Error.ofRecords_of_ofBody (h : e.ofBody = true) : e.ofRecords = false := by
  cases e with
  | trailing after => cases after <;> trivial
  | truncated | oversized => rfl
  | _ => contradiction

/-- Whoever finds something wrong: the joining with the records, or the next stage with the message. -/
theorem parse_eq_error (h : parse raw = .error e) :
    (reassemble [] raw = .error e ∧ e.ofRecords = true) ∨
      ∃ kind, e = .notClientHello kind ∨ e.ofBody = true := by
  cases hjoined : reassemble [] raw with
  | error fault =>
    rw [parse_of_error hjoined] at h
    obtain rfl := Except.error.inj h
    obtain ⟨fs, tail, -, -, hoffends⟩ := reassemble_eq_error_iff.mp hjoined
    exact .inl ⟨rfl, hoffends.ofRecords⟩
  | ok found =>
    obtain ⟨message, rest⟩ := found
    obtain ⟨n, fs, kind, a, b, c, body, -, -, -, -, -, -, hparse⟩ := whole_of_reassemble hjoined
    exact .inr ⟨kind, Error.of_whole (hparse.symm.trans h)⟩

/-- The joining ends, within one round more than records have room. A message that it hands on is four
bytes and the body whose length they announce, found in the first `n` bytes; the body is all that is
looked at next, and it alone can be cut short. What is wrong with records is said by the joining and by
nobody else, and it is what is wrong with the first record that it cannot take or go on with. -/
theorem reassembly_leaves_a_whole_message (raw : Bytes) :
    Progress.round^[raw.length / 5 + 1] (.going [] raw) = .finished (reassemble [] raw) ∧
    (∀ message rest, reassemble [] raw = .ok (message, rest) → ∃ n fs kind a b c body,
      n ≤ raw.length ∧ raw.take n = Fragment.wire fs ∧ raw.drop n = rest ∧ Carries fs message ∧
      message = kind :: a :: b :: c :: body ∧ message.length = 4 + be24 a b c ∧
      parse raw = if kind = clientHelloType then (parseBody body).map (⟨·, raw.take n, rest⟩)
        else .error (.notClientHello kind)) ∧
    (∀ part ∈ [Part.handshakeType, .handshakeLength, .handshakeBody],
      parse raw ≠ .error (.truncated part)) ∧
    (∀ p, parse raw = .ok p → ∃ n ≤ raw.length, p.records = raw.take n ∧ p.records.length = n ∧
      p.rest = raw.drop n) ∧
    (∀ e, reassemble [] raw = .error e ↔ parse raw = .error e ∧ e.ofRecords = true) ∧
    ∀ e, reassemble [] raw = .error e ↔ ∃ fs tail, raw = Fragment.wire fs ++ tail ∧
      Unfinished [] fs ∧ Offends (Fragment.joined fs) tail e := by
  refine ⟨Progress.iterate_round _ _ (Nat.le_refl _), fun message rest => whole_of_reassemble,
    ?_, ?_, ?_, fun e => reassemble_eq_error_iff⟩
  · intro part hpart h
    simp only [List.mem_cons, List.not_mem_nil, or_false] at hpart
    rcases parse_eq_error h with ⟨-, hrecords⟩ | ⟨kind, hkind | hbody⟩
    · contradiction
    · contradiction
    · rcases hpart with rfl | rfl | rfl <;> contradiction
  · intro p h
    obtain ⟨fs, message, -, -, -, hraw⟩ := parse_eq_ok_iff.mp h
    exact ⟨p.records.length, by simp [hraw], by simp [hraw], rfl, by simp [hraw]⟩
  · intro e
    constructor
    · intro h
      obtain ⟨fs, tail, -, -, hoffends⟩ := reassemble_eq_error_iff.mp h
      exact ⟨parse_of_error h, hoffends.ofRecords⟩
    · intro hall
      obtain ⟨h, hrecords⟩ := hall
      rcases parse_eq_error h with ⟨hjoined, -⟩ | ⟨kind, rfl | hbody⟩
      · exact hjoined
      · contradiction
      · rw [Error.ofRecords_of_ofBody hbody] at hrecords
        contradiction

end Gatehouse.Hello
