import Gatehouse.Proofs.Crypto.Widths
import Gatehouse.Ticket.KeyList

namespace Gatehouse.Ticket
open Crypto

namespace Key

@[simp] theorem length_name (key : Key) : key.name.length = 16 := by simp [name, expanded]

@[simp] theorem length_cipherKey (key : Key) : key.cipherKey.length = 16 := by
  simp [cipherKey, expanded]

@[simp] theorem length_tag (key : Key) (body : Bytes) : (key.tag body).length = 32 := by simp [tag]

/-- Name and tag of a ticket are those that the key gives it. -/
def Vouches (key : Key) (ticket : Bytes) : Prop :=
  key.name = ticket.take 16 ∧
    hmacSha256 key.tagKey (ticket.take (ticket.length - 32)) = ticket.drop (ticket.length - 32)

/-- Where the counter stands in a ticket. -/
theorem iv_of_body {ticket : Bytes} (h : 64 ≤ ticket.length) :
    ((ticket.take (ticket.length - 32)).drop 16).take 16 = (ticket.drop 16).take 16 := by
  rw [List.drop_take, List.take_take]
  congr 1
  omega

/-- Where the encrypted state stands in a ticket. -/
theorem text_of_body (ticket : Bytes) :
    (ticket.take (ticket.length - 32)).drop 32 = (ticket.drop 32).take (ticket.length - 64) := by
  rw [List.drop_take]
  congr 1

theorem open?_eq_some_iff {key : Key} {ticket state : Bytes} :
    key.open? ticket = some state ↔ 64 ≤ ticket.length ∧ key.Vouches ticket ∧
      state = applyCounter key.cipherKey ((ticket.drop 16).take 16)
        ((ticket.drop 32).take (ticket.length - 64)) := by
  unfold open?
  by_cases hshort : ticket.length < overhead
  · rw [if_pos hshort]
    refine iff_of_false (by simp) ?_
    intro hall
    obtain ⟨hlong, _⟩ := hall
    exact absurd hshort (Nat.not_lt.mpr hlong)
  · rw [if_neg hshort]
    have hlong : 64 ≤ ticket.length := Nat.le_of_not_lt hshort
    by_cases hname : ticket.take nameLength ≠ key.name
    · rw [if_pos hname]
      refine iff_of_false (by simp) ?_
      intro hall
      obtain ⟨_, ⟨hn, _⟩, _⟩ := hall
      exact hname hn.symm
    · rw [if_neg hname]
      simp only
      by_cases htag : ticket.drop (ticket.length - tagLength) ≠
          key.tag (ticket.take (ticket.length - tagLength))
      · rw [if_pos htag]
        refine iff_of_false (by simp) ?_
        intro hall
        obtain ⟨_, ⟨_, ht⟩, _⟩ := hall
        exact htag ht.symm
      · rw [if_neg htag, Option.some.injEq]
        rw [Decidable.not_not] at hname htag
        have hiv := iv_of_body hlong
        have htext := text_of_body ticket
        constructor
        · intro he
          subst he
          exact ⟨hlong, ⟨hname.symm, htag.symm⟩, by rw [← hiv, ← htext]; rfl⟩
        · intro hall
          obtain ⟨_, _, rfl⟩ := hall
          rw [← hiv, ← htext]
          rfl

/-- A ticket is longer than its state by the overhead of the envelope. -/
theorem length_of_open? {key : Key} {ticket state : Bytes} (h : key.open? ticket = some state) :
    ticket.length = state.length + 64 := by
  obtain ⟨hlen, _, rfl⟩ := open?_eq_some_iff.mp h
  rw [length_applyCounter _ _ _ key.length_cipherKey]
  simp only [List.length_take, List.length_drop]
  omega

theorem open?_isSome_iff {key : Key} {ticket : Bytes} :
    (key.open? ticket).isSome ↔ 64 ≤ ticket.length ∧ key.Vouches ticket := by
  rw [Option.isSome_iff_exists]
  constructor
  · intro hall
    obtain ⟨state, h⟩ := hall
    obtain ⟨hlen, hv, _⟩ := open?_eq_some_iff.mp h
    exact ⟨hlen, hv⟩
  · intro hall
    obtain ⟨hlen, hv⟩ := hall
    exact ⟨_, open?_eq_some_iff.mpr ⟨hlen, hv, rfl⟩⟩

end Key

namespace KeyList

/-- A ticket opens to a state that is not empty exactly if it is long enough for one and some key
vouches for it. The first key that opens it cannot hide a better one: they all agree on the length
of the state. -/
theorem open?_eq_some_cons_iff {keys : KeyList} {ticket : Bytes} :
    (∃ b bs, keys.open? ticket = some (b :: bs)) ↔
      64 < ticket.length ∧ ∃ k ∈ keys.toList, k.Vouches ticket := by
  constructor
  · intro hall
    obtain ⟨b, bs, h⟩ := hall
    obtain ⟨k, hk, hopen⟩ := List.exists_of_findSome?_eq_some h
    have hlen := Key.length_of_open? hopen
    rw [List.length_cons] at hlen
    exact ⟨by omega, k, hk, (Key.open?_eq_some_iff.mp hopen).2.1⟩
  · intro hall
    obtain ⟨hlen, k, hk, hv⟩ := hall
    have hopens : (k.open? ticket).isSome := Key.open?_isSome_iff.mpr ⟨Nat.le_of_lt hlen, hv⟩
    have hsome : (keys.open? ticket).isSome := List.findSome?_isSome_iff.mpr ⟨k, hk, hopens⟩
    obtain ⟨state, h⟩ := Option.isSome_iff_exists.mp hsome
    obtain ⟨k', _, hopen⟩ := List.exists_of_findSome?_eq_some h
    have hstate := Key.length_of_open? hopen
    cases state with
    | nil => rw [List.length_nil] at hstate; omega
    | cons b bs => exact ⟨b, bs, h⟩

end KeyList
end Gatehouse.Ticket
