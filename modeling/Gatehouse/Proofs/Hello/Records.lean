import Gatehouse.Hello.Record
import Gatehouse.Proofs.Hello.Wire

namespace Gatehouse.Hello
open Bytes

/-- A handshake record: two version bytes, which nobody looks at, and what it carries. -/
structure Fragment where
  major : UInt8
  minor : UInt8
  payload : Bytes

def Fragment.bytes (f : Fragment) : Bytes :=
  handshakeContent :: f.major :: f.minor :: prefixed16 f.payload

def Fragment.wire (fs : List Fragment) : Bytes := fs.flatMap Fragment.bytes

def Fragment.joined (fs : List Fragment) : Bytes := fs.flatMap Fragment.payload

@[simp] theorem Fragment.wire_cons (f : Fragment) (fs : List Fragment) :
    wire (f :: fs) = f.bytes ++ wire fs := rfl

@[simp] theorem Fragment.joined_cons (f : Fragment) (fs : List Fragment) :
    joined (f :: fs) = f.payload ++ joined fs := rfl

@[simp] theorem Fragment.wire_nil : wire [] = [] := rfl

@[simp] theorem Fragment.joined_nil : joined [] = [] := rfl

theorem takeRecord_bytes (f : Fragment) (fits : f.payload.length ≤ maxPayload) (rest : Bytes) :
    takeRecord (f.bytes ++ rest) = .ok (f.payload, rest) := by
  have hsmall : f.payload.length < 65536 := by simp only [maxPayload] at fits; omega
  have hsize := be16_ofNat f.payload.length hsmall
  simp only [Fragment.bytes, prefixed16, ofNat16, List.cons_append, takeRecord, hsize]
  simp [Nat.not_lt.mpr fits]

theorem takeRecord_eq_ok_iff {raw payload rest : Bytes} :
    takeRecord raw = .ok (payload, rest) ↔
      ∃ f : Fragment, f.payload = payload ∧ f.payload.length ≤ maxPayload ∧
        raw = f.bytes ++ rest := by
  constructor
  · intro h
    unfold takeRecord at h
    split at h
    · rename_i content major minor hi lo tail
      simp only at h
      repeat' split at h
      all_goals try contradiction
      rename_i hcontent hsize hlen
      simp only [Except.ok.injEq, Prod.mk.injEq] at h
      obtain ⟨rfl, rfl⟩ := h
      have htake : (tail.take (be16 hi lo)).length = be16 hi lo := by
        simp only [List.length_take]
        omega
      refine ⟨⟨major, minor, tail.take (be16 hi lo)⟩, rfl, by simp only [htake]; omega, ?_⟩
      simp only [ne_eq, Decidable.not_not] at hcontent
      simp [Fragment.bytes, prefixed16, htake, ofNat16_be16, hcontent]
    · contradiction
  · intro hall
    obtain ⟨f, rfl, fits, rfl⟩ := hall
    exact takeRecord_bytes f fits rest

theorem announced?_append {m : Bytes} {n : Nat} (h : announced? m = some n) (more : Bytes) :
    announced? (m ++ more) = some n := by
  unfold announced? at h
  split at h
  · simpa [announced?] using h
  · contradiction

theorem announced?_eq_none_iff {m : Bytes} : announced? m = none ↔ m.length < 4 := by
  unfold announced?
  split
  · simp
  · rename_i hm
    refine iff_of_true rfl ?_
    match m, hm with
    | [], _ | [_], _ | [_, _], _ | [_, _, _], _ => simp
    | k :: a :: b :: c :: rest, hm => exact absurd rfl (hm k a b c rest)

/-- As long as it announces to be. -/
def Complete (m : Bytes) : Prop := announced? m = some m.length

/-- Not known to be as long as it will be. -/
def Pending (m : Bytes) : Prop := ∀ n, announced? m = some n → m.length < n

/-- Of a complete message, what comes short of its end is pending and all of it is not. -/
theorem pending_iff_shorter {m more : Bytes} (hc : Complete (m ++ more)) :
    Pending m ↔ m.length < (m ++ more).length := by
  constructor
  · intro hp
    cases ha : announced? m with
    | none =>
      have hshort := announced?_eq_none_iff.mp ha
      have hlong : ¬ (m ++ more).length < 4 := by
        intro hl
        have hn := announced?_eq_none_iff.mpr hl
        rw [Complete, hn] at hc
        contradiction
      omega
    | some n =>
      have hn := announced?_append ha more
      rw [Complete, hn, Option.some.injEq] at hc
      exact hc ▸ hp n ha
  · intro hlt n ha
    have hn := announced?_append ha more
    rw [Complete, hn, Option.some.injEq] at hc
    omega

/-- A complete message is its type, the length of its body, and its body. -/
theorem complete_iff {m : Bytes} :
    Complete m ↔ ∃ (kind : UInt8) (body : Bytes),
      body.length < 16777216 ∧ m = kind :: (ofNat24 body.length ++ body) := by
  constructor
  · intro hc
    unfold Complete announced? at hc
    split at hc
    · rename_i kind a b c body
      simp only [Option.some.injEq, List.length_cons] at hc
      have hbody : body.length = be24 a b c := by omega
      exact ⟨kind, body, hbody ▸ be24_lt a b c, by simp [hbody, ofNat24_be24]⟩
    · contradiction
  · intro hall
    obtain ⟨kind, body, hlen, rfl⟩ := hall
    simp only [Complete, ofNat24, List.cons_append, List.nil_append, announced?,
      be24_ofNat _ hlen, List.length_cons, Option.some.injEq]
    omega

theorem reassemble_of_error {message raw : Bytes} {e : Error} (h : takeRecord raw = .error e) :
    reassemble message raw = .error e := by
  rw [reassemble]
  split
  · simp_all
  · simp_all

theorem reassemble_of_ok {message raw payload rest : Bytes}
    (h : takeRecord raw = .ok (payload, rest)) :
    reassemble message raw =
      match announced? (message ++ payload) with
      | none => reassemble (message ++ payload) rest
      | some needed =>
        if (message ++ payload).length < needed then reassemble (message ++ payload) rest
        else if needed < (message ++ payload).length then .error (.trailing .handshakeRecord)
        else .ok (message ++ payload, rest) := by
  rw [reassemble]
  split
  · simp_all
  · rename_i p r hr
    rw [hr, Except.ok.injEq, Prod.mk.injEq] at h
    obtain ⟨rfl, rfl⟩ := h
    rfl

theorem reassemble_of_pending {message raw payload rest : Bytes}
    (h : takeRecord raw = .ok (payload, rest)) (hp : Pending (message ++ payload)) :
    reassemble message raw = reassemble (message ++ payload) rest := by
  rw [reassemble_of_ok h]
  split
  · rfl
  · rename_i needed ha
    rw [if_pos (hp needed ha)]

theorem reassemble_of_complete {message raw payload rest : Bytes}
    (h : takeRecord raw = .ok (payload, rest)) (hc : Complete (message ++ payload)) :
    reassemble message raw = .ok (message ++ payload, rest) := by
  rw [reassemble_of_ok h, hc]
  simp

/-- Records that continue `message` up to its end, which comes with the last of them. -/
inductive Continues : Bytes → List Fragment → Bytes → Prop
  | last {message : Bytes} (f : Fragment) (fits : f.payload.length ≤ maxPayload)
      (complete : Complete (message ++ f.payload)) :
      Continues message [f] (message ++ f.payload)
  | more {message whole : Bytes} (f : Fragment) {fs : List Fragment}
      (fits : f.payload.length ≤ maxPayload) (pending : Pending (message ++ f.payload))
      (tail : Continues (message ++ f.payload) fs whole) : Continues message (f :: fs) whole

/-- Joining accepts what is made of such records, and stops behind the last of them. -/
theorem reassemble_eq_ok_iff {message raw whole rest : Bytes} :
    reassemble message raw = .ok (whole, rest) ↔
      ∃ fs, Continues message fs whole ∧ raw = Fragment.wire fs ++ rest := by
  constructor
  · intro h
    induction hn : raw.length using Nat.strongRecOn generalizing message raw with
    | ind n ih =>
      cases ht : takeRecord raw with
      | error e =>
        rw [reassemble_of_error ht] at h
        contradiction
      | ok p =>
        obtain ⟨payload, tail⟩ := p
        have hshorter : tail.length < n := hn ▸ takeRecord_length ht
        obtain ⟨f, rfl, hfits, rfl⟩ := takeRecord_eq_ok_iff.mp ht
        have onward (hp : Pending (message ++ f.payload)) :
            ∃ fs, Continues message fs whole ∧ f.bytes ++ tail = Fragment.wire fs ++ rest := by
          rw [reassemble_of_pending ht hp] at h
          obtain ⟨fs, hfs, rfl⟩ := ih _ hshorter h rfl
          exact ⟨f :: fs, .more f hfits hp hfs, by simp⟩
        cases ha : announced? (message ++ f.payload) with
        | none => exact onward (by intro n hn'; simp [ha] at hn')
        | some needed =>
          rw [reassemble_of_ok ht, ha] at h
          simp only at h
          split at h
          · rename_i hlt
            exact onward (by intro n hn'; simp_all)
          · split at h
            · contradiction
            · simp only [Except.ok.injEq, Prod.mk.injEq] at h
              obtain ⟨rfl, rfl⟩ := h
              have hlen : needed = (message ++ f.payload).length := by omega
              subst hlen
              exact ⟨[f], .last f hfits ha, by simp⟩
  · intro hall
    obtain ⟨fs, hfs, rfl⟩ := hall
    induction hfs with
    | last f hfits hc =>
      rw [Fragment.wire_cons, Fragment.wire_nil, List.append_nil]
      exact reassemble_of_complete (takeRecord_bytes f hfits rest) hc
    | more f hfits hp _ ih =>
      rw [Fragment.wire_cons, List.append_assoc,
        reassemble_of_pending (takeRecord_bytes f hfits _) hp]
      exact ih

/-- The records of one message: none is too large, and no fewer of them hold all of it. -/
structure Carries (fs : List Fragment) (message : Bytes) : Prop where
  nonempty : fs ≠ []
  fits : ∀ f ∈ fs, f.payload.length ≤ maxPayload
  joined : Fragment.joined fs = message
  needed : ∀ fewer, fewer <+: fs → fewer ≠ fs → (Fragment.joined fewer).length < message.length

theorem Continues.complete {message whole : Bytes} {fs : List Fragment}
    (h : Continues message fs whole) : Complete whole := by
  induction h with
  | last f _ hc => exact hc
  | more f _ _ _ ih => exact ih

theorem Continues.fits {message whole : Bytes} {fs : List Fragment}
    (h : Continues message fs whole) : ∀ f ∈ fs, f.payload.length ≤ maxPayload := by
  induction h with
  | last f hf _ => simpa using hf
  | more f hf _ _ ih => simpa using ⟨hf, ih⟩

theorem Continues.joined {message whole : Bytes} {fs : List Fragment}
    (h : Continues message fs whole) : whole = message ++ Fragment.joined fs := by
  induction h with
  | last f _ _ => simp
  | more f _ _ _ ih => rw [ih, Fragment.joined_cons, List.append_assoc]

theorem Continues.ne_nil {message whole : Bytes} {fs : List Fragment}
    (h : Continues message fs whole) : fs ≠ [] := by
  cases h <;> simp

/-- What fewer of the records hold behind `message` is pending. -/
theorem Continues.needed {message whole : Bytes} {fs : List Fragment}
    (h : Continues message fs whole) (hm : Pending message) :
    ∀ fewer, fewer <+: fs → fewer ≠ fs → Pending (message ++ Fragment.joined fewer) := by
  induction h with
  | last f _ _ =>
    intro fewer hpre hne
    cases fewer with
    | nil => simpa using hm
    | cons g gs =>
      obtain ⟨rfl, hgs⟩ := List.cons_prefix_cons.mp hpre
      rw [List.prefix_nil.mp hgs] at hne
      contradiction
  | more f _ hp _ ih =>
    intro fewer hpre hne
    cases fewer with
    | nil => simpa using hm
    | cons g gs =>
      obtain ⟨rfl, hgs⟩ := List.cons_prefix_cons.mp hpre
      rw [Fragment.joined_cons, ← List.append_assoc]
      exact ih hp gs hgs (by rintro rfl; exact hne rfl)

theorem Continues.of_needed {message whole : Bytes} {fs : List Fragment} (hne : fs ≠ [])
    (fits : ∀ f ∈ fs, f.payload.length ≤ maxPayload)
    (joined : whole = message ++ Fragment.joined fs) (hc : Complete whole)
    (needed : ∀ fewer, fewer <+: fs → fewer ≠ fs → Pending (message ++ Fragment.joined fewer)) :
    Continues message fs whole := by
  induction fs generalizing message with
  | nil => contradiction
  | cons f fs ih =>
    cases fs with
    | nil =>
      rw [Fragment.joined_cons, Fragment.joined_nil, List.append_nil] at joined
      subst joined
      exact .last f (fits f (by simp)) hc
    | cons g gs =>
      have hfirst := needed [f] (by simp) (by simp)
      rw [Fragment.joined_cons, Fragment.joined_nil, List.append_nil] at hfirst
      have hfits (k : Fragment) (hk : k ∈ g :: gs) : k.payload.length ≤ maxPayload :=
        fits k (by simp [hk])
      refine .more f (fits f (by simp)) hfirst (ih (by simp) hfits ?_ ?_)
      · rw [joined, Fragment.joined_cons, List.append_assoc]
      · intro fewer hpre hfewer
        have hcons : f :: fewer <+: f :: g :: gs := List.cons_prefix_cons.mpr ⟨rfl, hpre⟩
        have h := needed (f :: fewer) hcons (by simpa using hfewer)
        rwa [Fragment.joined_cons, ← List.append_assoc] at h

/-- Records continue the empty message to its end exactly if they are those of that message. -/
theorem continues_nil_iff {fs : List Fragment} {message : Bytes} :
    Continues [] fs message ↔ Carries fs message ∧ Complete message := by
  have shorter (hj : Fragment.joined fs = message) (hc : Complete message)
      {fewer : List Fragment} (hpre : fewer <+: fs) :
      Pending (Fragment.joined fewer) ↔ (Fragment.joined fewer).length < message.length := by
    obtain ⟨more, rfl⟩ := hpre
    rw [Fragment.joined, List.flatMap_append] at hj
    subst hj
    exact pending_iff_shorter hc
  constructor
  · intro h
    have hj := h.joined.symm
    refine ⟨⟨h.ne_nil, h.fits, hj, ?_⟩, h.complete⟩
    intro fewer hpre hne
    have hempty : Pending [] := by
      intro n hn
      simp [announced?] at hn
    exact (shorter hj h.complete hpre).mp (h.needed hempty fewer hpre hne)
  · intro hall
    obtain ⟨h, hc⟩ := hall
    refine .of_needed h.nonempty h.fits h.joined.symm hc ?_
    intro fewer hpre hne
    exact (shorter h.joined hc hpre).mpr (h.needed fewer hpre hne)

end Gatehouse.Hello
