import Gatehouse.Bytes

namespace Gatehouse.Bytes

/-- What is still to be read of an array of bytes comes behind what has been read. -/
theorem toList_loop {bytes : ByteArray} {rest : Bytes} {i : Nat}
    (h : bytes.data.toList.drop i = rest) (done : Bytes) :
    ByteArray.toList.loop bytes i done = done.reverse ++ rest := by
  induction rest generalizing i done with
  | nil =>
    have hend : bytes.size ≤ i := List.drop_eq_nil_iff.mp h
    rw [ByteArray.toList.loop, if_neg (Nat.not_lt.mpr hend), List.append_nil]
  | cons b rest ih =>
    have hi : i < bytes.size := by
      apply Nat.lt_of_not_le
      intro hend
      rw [List.drop_eq_nil_of_le hend] at h
      contradiction
    rw [List.drop_eq_getElem_cons hi, List.cons.injEq] at h
    obtain ⟨hb, hrest⟩ := h
    have hget : bytes.get! i = b := by
      rw [← hb]
      exact getElem!_pos bytes.data i hi
    rw [ByteArray.toList.loop, if_pos hi, ih hrest, hget, List.reverse_cons, List.append_assoc,
      List.singleton_append]

theorem ofString_eq (text : String) : ofString text = text.toByteArray.data.toList :=
  toList_loop List.drop_zero []

theorem ofString_inj {text text' : String} : ofString text = ofString text' ↔ text = text' := by
  rw [ofString_eq, ofString_eq, Array.toList_inj, ← ByteArray.ext_iff, String.toByteArray_inj]

/-- A character of ASCII is one byte. -/
theorem ofString_ascii {cs : List Char} (h : ∀ c ∈ cs, c.toNat < 128) :
    ofString (String.ofList cs) = cs.map fun c => UInt8.ofNat c.toNat := by
  rw [ofString_eq, String.toByteArray_ofList, List.utf8Encode, List.toList_data_toByteArray]
  induction cs with
  | nil => rfl
  | cons c rest ih =>
    rw [List.forall_mem_cons] at h
    have hone : String.utf8EncodeChar c = [UInt8.ofNat c.toNat] := if_pos (Nat.le_of_lt_succ h.1)
    rw [List.flatMap_cons, hone, ih h.2]
    rfl

theorem toString?_eq_some_iff {bs : Bytes} {text : String} :
    toString? bs = some text ↔ bs = ofString text := by
  rw [ofString_eq]
  constructor
  · intro h
    unfold toString? String.fromUTF8? at h
    split at h
    · obtain rfl := Option.some.inj h
      rfl
    · contradiction
  · intro h
    subst h
    exact dif_pos text.isValidUTF8

end Gatehouse.Bytes
