import Gatehouse.Proofs.Ticket.Opening

namespace Gatehouse.Crypto

theorem zipWith_xor_cancel (text stream : Bytes) (h : text.length ≤ stream.length) :
    List.zipWith (· ^^^ ·) (List.zipWith (· ^^^ ·) text stream) stream = text := by
  induction text generalizing stream with
  | nil => rfl
  | cons b bs ih =>
    cases stream with
    | nil => simp at h
    | cons k ks =>
      have hrest := ih ks (by simpa using h)
      have hbyte : b ^^^ k ^^^ k = b := by rw [UInt8.xor_assoc, UInt8.xor_self, UInt8.xor_zero]
      simp only [List.zipWith_cons_cons, hbyte, hrest]

/-- Counter mode is its own inverse, also when the last block is not full. -/
theorem applyCounter_applyCounter (key iv text : Bytes) (hk : key.length = 16) :
    applyCounter key iv (applyCounter key iv text) = text := by
  have hlength := length_applyCounter key iv text hk
  have hstream : text.length ≤
      (keyStream key (natOfBytes iv) ((text.length + cipherBlock - 1) / cipherBlock)).length := by
    rw [length_keyStream key hk, cipherBlock]
    omega
  -- The text keeps its length, so both passes take the same stream.
  have houter : applyCounter key iv (applyCounter key iv text) =
      List.zipWith (· ^^^ ·) (applyCounter key iv text)
        (keyStream key (natOfBytes iv) ((text.length + cipherBlock - 1) / cipherBlock)) := by
    rw [applyCounter, hlength]
  rw [houter, applyCounter]
  exact zipWith_xor_cancel _ _ hstream

end Gatehouse.Crypto

namespace Gatehouse.Ticket.Key
open Crypto

/-- What the tag of a sealed ticket vouches for. -/
def bodyWith (key : Key) (iv state : Bytes) : Bytes :=
  key.name ++ iv ++ applyCounter key.cipherKey iv state

theorem sealWith_eq (key : Key) (iv state : Bytes) :
    key.sealWith iv state = key.bodyWith iv state ++ key.tag (key.bodyWith iv state) := rfl

theorem take_sealWith (key : Key) (iv state : Bytes) :
    (key.sealWith iv state).take ((key.sealWith iv state).length - 32) = key.bodyWith iv state := by
  rw [sealWith_eq]
  exact List.take_left' (by simp)

theorem drop_sealWith (key : Key) (iv state : Bytes) :
    (key.sealWith iv state).drop ((key.sealWith iv state).length - 32) =
      key.tag (key.bodyWith iv state) := by
  rw [sealWith_eq]
  exact List.drop_left' (by simp)

theorem name_sealWith (key : Key) (iv state : Bytes) :
    (key.sealWith iv state).take 16 = key.name := by
  simp only [sealWith_eq, bodyWith, List.append_assoc]
  exact List.take_left' key.length_name

section Parts
variable (key : Key) {iv : Bytes} (state : Bytes) (hiv : iv.length = ivLength)
include hiv

theorem length_bodyWith : (key.bodyWith iv state).length = state.length + 32 := by
  have hivs : iv.length = 16 := hiv
  have htext := length_applyCounter key.cipherKey iv state key.length_cipherKey
  simp only [bodyWith, List.length_append, length_name, hivs, htext]
  omega

theorem length_sealWith : (key.sealWith iv state).length = state.length + 64 := by
  rw [sealWith_eq, List.length_append, length_tag, key.length_bodyWith state hiv]

theorem iv_sealWith : ((key.sealWith iv state).drop 16).take 16 = iv := by
  simp only [sealWith_eq, bodyWith, List.append_assoc]
  rw [List.drop_left' key.length_name]
  exact List.take_left' hiv

theorem text_sealWith :
    ((key.sealWith iv state).drop 32).take ((key.sealWith iv state).length - 64) =
      applyCounter key.cipherKey iv state := by
  have htext := length_applyCounter key.cipherKey iv state key.length_cipherKey
  have hhead : (key.name ++ iv).length = 32 := by
    rw [List.length_append, length_name, hiv]
    rfl
  rw [key.length_sealWith state hiv, Nat.add_sub_cancel, sealWith_eq, bodyWith, List.append_assoc,
    List.drop_left' hhead]
  exact List.take_left' htext

/-- Opening undoes sealing. -/
theorem open?_sealWith : key.open? (key.sealWith iv state) = some state := by
  refine open?_eq_some_iff.mpr ⟨?_, ⟨?_, ?_⟩, ?_⟩
  · rw [key.length_sealWith state hiv]
    omega
  · exact (key.name_sealWith iv state).symm
  · rw [take_sealWith, drop_sealWith]
    rfl
  · rw [key.iv_sealWith state hiv, key.text_sealWith state hiv,
      applyCounter_applyCounter _ _ _ key.length_cipherKey]

end Parts

/-- A ticket in front of its tag is its name, its counter and its text. -/
theorem take_eq_parts {ticket : Bytes} (h : 64 ≤ ticket.length) :
    ticket.take (ticket.length - 32) =
      ticket.take 16 ++ (ticket.drop 16).take 16 ++ (ticket.drop 32).take (ticket.length - 64) := by
  have hhead : ticket.take 16 ++ (ticket.drop 16).take 16 = ticket.take 32 :=
    List.take_add.symm
  have hlength : ticket.length - 32 = 32 + (ticket.length - 64) := by omega
  rw [hhead, hlength, List.take_add]

/-- What opens is the sealing of what it opens to, under the counter that it carries. -/
theorem sealWith_of_open? {key : Key} {ticket state : Bytes} (h : key.open? ticket = some state) :
    key.sealWith ((ticket.drop 16).take 16) state = ticket := by
  obtain ⟨hlong, ⟨hname, htag⟩, rfl⟩ := open?_eq_some_iff.mp h
  have hbody : key.bodyWith ((ticket.drop 16).take 16) (applyCounter key.cipherKey
      ((ticket.drop 16).take 16) ((ticket.drop 32).take (ticket.length - 64))) =
      ticket.take (ticket.length - 32) := by
    rw [bodyWith, applyCounter_applyCounter _ _ _ key.length_cipherKey, take_eq_parts hlong, hname]
  calc key.sealWith _ _
      = ticket.take (ticket.length - 32) ++ key.tag (ticket.take (ticket.length - 32)) := by
        rw [sealWith_eq, hbody]
    _ = ticket.take (ticket.length - 32) ++ ticket.drop (ticket.length - 32) := by
        rw [← htag]
        rfl
    _ = ticket := List.take_append_drop _ _

theorem length_iv_of_open? {key : Key} {ticket state : Bytes} (h : key.open? ticket = some state) :
    ((ticket.drop 16).take 16).length = ivLength := by
  obtain ⟨hlong, -⟩ := open?_eq_some_iff.mp h
  simp only [List.length_take, List.length_drop, ivLength]
  omega

theorem open?_eq_some_iff_sealWith {key : Key} {ticket state : Bytes} :
    key.open? ticket = some state ↔ ∃ iv, iv.length = ivLength ∧ key.sealWith iv state = ticket := by
  constructor
  · intro h
    exact ⟨_, length_iv_of_open? h, sealWith_of_open? h⟩
  · rintro ⟨iv, hiv, rfl⟩
    exact key.open?_sealWith state hiv

/-- Only one tag goes with what stands in front of it. -/
theorem open?_retagged {key : Key} {body tag tag' state : Bytes} (htag : tag.length = tagLength)
    (htag' : tag'.length = tagLength) (h : key.open? (body ++ tag) = some state)
    (hne : tag' ≠ tag) : key.open? (body ++ tag') = none := by
  have hsplit (t : Bytes) (ht : t.length = tagLength) :
      (body ++ t).take ((body ++ t).length - 32) = body ∧
        (body ++ t).drop ((body ++ t).length - 32) = t := by
    have hbody : (body ++ t).length - 32 = body.length := by
      rw [List.length_append, ht]
      rfl
    rw [hbody]
    exact ⟨List.take_left, List.drop_left⟩
  obtain ⟨_, ⟨_, hgood⟩, _⟩ := open?_eq_some_iff.mp h
  rw [(hsplit tag htag).1, (hsplit tag htag).2] at hgood
  cases hopen : key.open? (body ++ tag') with
  | none => rfl
  | some other =>
    obtain ⟨_, ⟨_, hbad⟩, _⟩ := open?_eq_some_iff.mp hopen
    rw [(hsplit tag' htag').1, (hsplit tag' htag').2] at hbad
    exact absurd (hbad.symm.trans hgood) hne

/-- Under one key, sealing pairs the states and the counters with the tickets that open, one to
one. A ticket with another tag, another name, or too few bytes does not open. -/
theorem opens_exactly_the_sealed (key : Key) :
    (∀ ticket state, key.open? ticket = some state ↔
      ∃ iv, iv.length = ivLength ∧ key.sealWith iv state = ticket) ∧
    (∀ iv state, iv.length = ivLength → key.open? (key.sealWith iv state) = some state) ∧
    (∀ iv iv' state state', iv.length = ivLength → iv'.length = ivLength →
      key.sealWith iv state = key.sealWith iv' state' → iv = iv' ∧ state = state') ∧
    (∀ ticket state, key.open? ticket = some state →
      key.sealWith ((ticket.drop nameLength).take ivLength) state = ticket ∧
        ticket.length = state.length + overhead) ∧
    (∀ body tag tag' state, tag.length = tagLength → tag'.length = tagLength →
      key.open? (body ++ tag) = some state → tag' ≠ tag → key.open? (body ++ tag') = none) ∧
    (∀ ticket, ticket.length < overhead → key.open? ticket = none) ∧
    (∀ ticket, ticket.take nameLength ≠ key.name → key.open? ticket = none) := by
  refine ⟨fun _ _ => open?_eq_some_iff_sealWith, fun _ state hiv => key.open?_sealWith state hiv,
    ?_, ?_, ?_, ?_, ?_⟩
  · intro iv iv' state state' hiv hiv' heq
    have hstate := key.open?_sealWith state hiv
    rw [heq, key.open?_sealWith state' hiv', Option.some.injEq] at hstate
    have hcounter := key.iv_sealWith state hiv
    rw [heq, key.iv_sealWith state' hiv'] at hcounter
    exact ⟨hcounter.symm, hstate.symm⟩
  · intro ticket state h
    exact ⟨sealWith_of_open? h, length_of_open? h⟩
  · intro body tag tag' state htag htag' h hne
    exact open?_retagged htag htag' h hne
  · intro ticket hshort
    exact if_pos hshort
  · intro ticket hname
    cases hopen : key.open? ticket with
    | none => rfl
    | some state => exact absurd (open?_eq_some_iff.mp hopen).2.1.1.symm hname

end Gatehouse.Ticket.Key
