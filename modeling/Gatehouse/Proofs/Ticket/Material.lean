import Gatehouse.Proofs.Base64
import Gatehouse.Proofs.Text.Utf8
import Gatehouse.Proofs.Ticket.KeyFile
import Mathlib.Data.List.TakeWhile

namespace Gatehouse

namespace Text

/-- All of a text is white space. -/
def Blank (text : String) : Prop := ∀ c ∈ text.toList, isBlank c = true

theorem blank_singleton {c : Char} (h : isBlank c = true) : Blank (String.singleton c) := by
  intro c' hc'
  rw [String.toList_singleton, List.mem_singleton] at hc'
  rwa [hc']

theorem dropWhile_plain {cs : List Char} (h : ∀ c ∈ cs, isBlank c = false) :
    cs.dropWhile isBlank = cs := by
  cases cs with
  | nil => rfl
  | cons c rest =>
    have hc : ¬ isBlank c = true := by simp [h c List.mem_cons_self]
    exact List.dropWhile_cons_of_neg hc

/-- White space around a text without any is all that is taken off. -/
theorem trim_append {before cs after : List Char} (hbefore : ∀ c ∈ before, isBlank c = true)
    (hafter : ∀ c ∈ after, isBlank c = true) (hcs : ∀ c ∈ cs, isBlank c = false) :
    trim (before ++ cs ++ after) = cs := by
  have hback : ∀ c ∈ cs.reverse, isBlank c = false := fun c hc => hcs c (List.mem_reverse.mp hc)
  have hend : ∀ c ∈ after.reverse, isBlank c = true := fun c hc => hafter c (List.mem_reverse.mp hc)
  rw [trim, List.append_assoc, List.dropWhile_append_of_pos hbefore]
  cases cs with
  | nil =>
    rw [List.nil_append, List.dropWhile_eq_nil_iff.mpr hafter]
    rfl
  | cons c rest =>
    have hc : ¬ isBlank c = true := by simp [hcs c List.mem_cons_self]
    rw [List.cons_append, List.dropWhile_cons_of_neg hc, ← List.cons_append, List.reverse_append,
      List.dropWhile_append_of_pos hend, dropWhile_plain hback, List.reverse_reverse]

/-- Nothing but white space is taken off. -/
theorem exists_around_trim (text : List Char) :
    ∃ before after, (∀ c ∈ before, isBlank c = true) ∧ (∀ c ∈ after, isBlank c = true) ∧
      text = before ++ trim text ++ after := by
  have hfront := List.takeWhile_append_dropWhile (p := isBlank) (l := text)
  have hback := List.takeWhile_append_dropWhile (p := isBlank)
    (l := (text.dropWhile isBlank).reverse)
  refine ⟨text.takeWhile isBlank,
    ((text.dropWhile isBlank).reverse.takeWhile isBlank).reverse, ?_, ?_, ?_⟩
  · intro c hc
    exact List.mem_takeWhile_imp hc
  · intro c hc
    exact List.mem_takeWhile_imp (List.mem_reverse.mp hc)
  · rw [List.append_assoc, trim, ← List.reverse_append, hback, List.reverse_reverse, hfront]

end Text

namespace Base64

/-- Every byte of a written form is a symbol or an equals sign. -/
theorem mem_encode {bs : Bytes} {b : UInt8} (h : b ∈ encode bs) :
    b = pad ∨ ∃ n < 64, b = symbol n := by
  rw [encode_eq, List.mem_append, List.mem_map] at h
  rcases h with ⟨n, hn, rfl⟩ | hpad
  · exact .inr ⟨n, sextets_lt bs n hn, rfl⟩
  · exact .inl (List.eq_of_mem_replicate hpad)

/-- These bytes are characters by themselves, and none of them is white space. -/
theorem plain_of_mem_encode {bs : Bytes} {b : UInt8} (h : b ∈ encode bs) :
    (Char.ofNat b.toNat).toNat = b.toNat ∧ b.toNat < 128 ∧
      Text.isBlank (Char.ofNat b.toNat) = false := by
  have hsymbols : ∀ n < 64, (Char.ofNat (symbol n).toNat).toNat = (symbol n).toNat ∧
      (symbol n).toNat < 128 ∧ Text.isBlank (Char.ofNat (symbol n).toNat) = false := by
    decide +kernel
  rcases mem_encode h with rfl | ⟨n, hn, rfl⟩
  · decide
  · exact hsymbols n hn

theorem ofString_encodeText (bs : Bytes) : Bytes.ofString (encodeText bs) = encode bs := by
  rw [encodeText, Bytes.ofString_ascii, List.map_map]
  · have hsame : ∀ b ∈ encode bs, UInt8.ofNat (Char.ofNat b.toNat).toNat = b := by
      intro b hb
      rw [(plain_of_mem_encode hb).1, UInt8.ofNat_toNat]
    exact (List.map_congr_left hsame).trans (List.map_id' _)
  · intro c hc
    obtain ⟨b, hb, rfl⟩ := List.mem_map.mp hc
    rw [(plain_of_mem_encode hb).1]
    exact (plain_of_mem_encode hb).2.1

theorem not_blank_of_mem_encodeText {bs : Bytes} {c : Char} (h : c ∈ (encodeText bs).toList) :
    Text.isBlank c = false := by
  rw [encodeText, String.toList_ofList, List.mem_map] at h
  obtain ⟨b, hb, rfl⟩ := h
  exact (plain_of_mem_encode hb).2.2

end Base64

namespace Ticket
namespace KeyList

/-- A text is taken for keys if, white space at its ends apart, it is the one written for them. -/
theorem ofBase64_eq_ok_iff {text : String} {keys : KeyList} :
    ofBase64 text = .ok keys ↔ Text.trim text.toList = keys.toBase64.toList := by
  have hdecode : ofBase64 text = .ok keys ↔
      Base64.decode (Bytes.ofString (String.ofList (Text.trim text.toList))) = .ok keys.toBytes := by
    unfold ofBase64
    cases Base64.decode (Bytes.ofString (String.ofList (Text.trim text.toList))) with
    | error e => simp
    | ok blob => simp only [ofBytes_eq_ok_iff, Except.ok.injEq]
  rw [hdecode, Base64.decode_eq_ok_iff, ← Base64.ofString_encodeText, Bytes.ofString_inj,
    ← String.toList_inj, String.toList_ofList]
  rfl

theorem ofBase64_around (keys : KeyList) {before after : String} (hbefore : Text.Blank before)
    (hafter : Text.Blank after) : ofBase64 (before ++ keys.toBase64 ++ after) = .ok keys := by
  rw [ofBase64_eq_ok_iff, String.toList_append, String.toList_append]
  exact Text.trim_append hbefore hafter fun c hc => Base64.not_blank_of_mem_encodeText hc

theorem exists_around_of_ofBase64 {text : String} {keys : KeyList} (h : ofBase64 text = .ok keys) :
    ∃ before after, Text.Blank before ∧ Text.Blank after ∧
      text = before ++ keys.toBase64 ++ after := by
  obtain ⟨before, after, hbefore, hafter, htext⟩ := Text.exists_around_trim text.toList
  rw [ofBase64_eq_ok_iff.mp h] at htext
  refine ⟨String.ofList before, String.ofList after, ?_, ?_, ?_⟩
  · rw [Text.Blank, String.toList_ofList]
    exact hbefore
  · rw [Text.Blank, String.toList_ofList]
    exact hafter
  · rw [← String.toList_inj, String.toList_append, String.toList_append, String.toList_ofList,
      String.toList_ofList]
    exact htext

theorem exists_ofBytes_iff {blob : Bytes} :
    (∃ keys, ofBytes blob = .ok keys) ↔ blob ≠ [] ∧ blob.length % keyLength = 0 := by
  constructor
  · rintro ⟨keys, h⟩
    rw [ofBytes_eq_ok_iff] at h
    subst h
    have hlength : keys.toBytes.length = keys.toList.length * keyLength :=
      length_flatMap_secret keys.toList
    refine ⟨?_, by rw [hlength, Nat.mul_mod_left]⟩
    intro hempty
    rw [hempty, length_toList, List.length_nil] at hlength
    simp [size, keyLength] at hlength
  · rintro ⟨hfilled, heven⟩
    obtain ⟨all, rfl⟩ := exists_keys (Nat.div_mul_cancel (Nat.dvd_of_mod_eq_zero heven)).symm
    cases all with
    | nil => contradiction
    | cons newest older => exact ⟨⟨newest, older⟩, ofBytes_toBytes ⟨newest, older⟩⟩

/-- Keys and their written forms belong to each other: bytes of a whole number of keys, and the standard
Base64 form of these with white space at its ends. -/
theorem forms_belong_to_keys :
    (∀ keys : KeyList, ofBytes keys.toBytes = .ok keys) ∧
    (∀ (keys : KeyList) (before after : String), Text.Blank before → Text.Blank after →
      ofBase64 (before ++ keys.toBase64 ++ after) = .ok keys) ∧
    (∀ blob, (∃ keys, ofBytes blob = .ok keys) ↔ blob ≠ [] ∧ blob.length % 32 = 0) ∧
    (∀ blob keys, ofBytes blob = .ok keys → keys.toBytes = blob) ∧
    (∀ text keys, ofBase64 text = .ok keys →
      keys.toBase64 = String.ofList (Text.trim text.toList) ∧
      ∃ before after, Text.Blank before ∧ Text.Blank after ∧
        text = before ++ keys.toBase64 ++ after) ∧
    (∀ text text' keys, ofBase64 text = .ok keys → ofBase64 text' = .ok keys →
      Text.trim text.toList = Text.trim text'.toList) ∧
    ∀ text blob, Base64.decode text = .ok blob ↔ Base64.Spells text blob := by
  refine ⟨ofBytes_toBytes, fun keys _ _ => ofBase64_around keys, fun _ => exists_ofBytes_iff, ?_, ?_,
    ?_, ?_⟩
  · intro blob keys h
    exact (ofBytes_eq_ok_iff.mp h).symm
  · intro text keys h
    refine ⟨?_, exists_around_of_ofBase64 h⟩
    rw [ofBase64_eq_ok_iff.mp h, String.ofList_toList]
  · intro text text' keys h h'
    rw [ofBase64_eq_ok_iff.mp h, ofBase64_eq_ok_iff.mp h']
  · intro text blob
    rw [Base64.decode_eq_ok_iff, Base64.spells_iff]

end KeyList
end Ticket
end Gatehouse
