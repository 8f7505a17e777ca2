import Gatehouse.Address.Destination

namespace Gatehouse

namespace Text

theorem isDigit_iff {c : Char} : c.isDigit = true ↔ 48 ≤ c.toNat ∧ c.toNat ≤ 57 := by
  simp only [Char.isDigit, Bool.and_eq_true, decide_eq_true_eq, ge_iff_le, UInt32.le_iff_toNat_le]
  exact Iff.rfl

theorem digit?_ten (c : Char) :
    digit? 10 c = if c.isDigit then some (c.toNat - '0'.toNat) else none := by
  have hzero : '0'.toNat = 48 := rfl
  unfold digit?
  dsimp only
  by_cases hdigit : c.isDigit = true
  · obtain ⟨hlow, hhigh⟩ := isDigit_iff.mp hdigit
    have hten : c.toNat - 48 < 10 := by omega
    rw [if_pos ⟨hlow, hhigh⟩, if_pos hdigit, hzero]
    simp [hten]
  · rw [if_neg (fun h => hdigit (isDigit_iff.mpr h)), if_neg hdigit]
    -- A hexadecimal letter has a value, but too large a one.
    split
    next => simp; omega
    next =>
      split
      next => simp; omega
      next => rfl

theorem mapM_digit?_ten (cs : List Char) :
    cs.mapM (digit? 10) =
      if cs.all Char.isDigit then some (cs.map fun c => c.toNat - '0'.toNat) else none := by
  induction cs with
  | nil => rfl
  | cons c cs ih =>
    rw [List.mapM_cons, digit?_ten, ih, List.all_cons]
    cases c.isDigit with
    | false => rfl
    | true => cases cs.all Char.isDigit <;> rfl

theorem foldl_map_digits (cs : List Char) (n : Nat) :
    (cs.map fun c => c.toNat - '0'.toNat).foldl (fun n d => n * 10 + d) n =
      Nat.ofDigitChars 10 cs n := by
  simp only [Nat.ofDigitChars, List.foldl_map, Nat.mul_comm]

/-- A text of decimal digits is read as the number it stands for, if that is not too large. -/
theorem number?_isSome_iff {limit : Nat} {cs : List Char} :
    (number? 10 limit cs).isSome = true ↔
      cs ≠ [] ∧ (∀ c ∈ cs, c.isDigit = true) ∧ Nat.ofDigitChars 10 cs 0 ≤ limit := by
  unfold number?
  rw [mapM_digit?_ten, ← List.all_eq_true]
  cases cs with
  | nil => simp
  | cons c cs =>
    rw [if_neg (by simp)]
    by_cases hdigits : (c :: cs).all Char.isDigit = true
    · rw [if_pos hdigits, Option.bind_some]
      dsimp only
      rw [ofDigits, foldl_map_digits]
      split
      next hfits => simpa [hfits] using hdigits
      next hlarge => simp [hlarge]
    · rw [if_neg hdigits]
      simp only [Option.bind_none, Option.isSome_none, Bool.false_eq_true, false_iff]
      exact fun h => hdigits h.2.1

end Text

/-- A number of 16 bits in decimal digits, with or without a plus sign. -/
def IsPort (cs : List Char) : Prop :=
  ∃ digits, (cs = digits ∨ cs = '+' :: digits) ∧ digits ≠ [] ∧ (∀ c ∈ digits, c.isDigit = true) ∧
    Nat.ofDigitChars 10 digits 0 < 65536

/-- A host that is not empty, the last colon of the text, and a port. -/
def IsHostPort (text : String) : Prop :=
  ∃ host port, text.toList = host ++ ':' :: port ∧ host ≠ [] ∧ ':' ∉ port ∧ IsPort port

theorem isPort_iff {cs : List Char} :
    IsPort cs ↔ (Text.signedNumber? 65535 cs).isSome = true := by
  unfold Text.signedNumber?
  split
  next digits =>
    rw [Text.number?_isSome_iff]
    constructor
    · intro hport
      obtain ⟨ds, hds, hne, hdigits, hlt⟩ := hport
      rcases hds with rfl | hds
      · simp at hdigits
      · obtain rfl := (List.cons.inj hds).2
        exact ⟨hne, hdigits, Nat.le_of_lt_succ hlt⟩
    · intro hall
      obtain ⟨hne, hdigits, hle⟩ := hall
      exact ⟨digits, .inr rfl, hne, hdigits, Nat.lt_succ_of_le hle⟩
  next hunsigned =>
    rw [Text.number?_isSome_iff]
    constructor
    · intro hport
      obtain ⟨ds, hds, hne, hdigits, hlt⟩ := hport
      rcases hds with rfl | rfl
      · exact ⟨hne, hdigits, Nat.le_of_lt_succ hlt⟩
      · exact absurd rfl (hunsigned ds)
    · intro hall
      obtain ⟨hne, hdigits, hle⟩ := hall
      exact ⟨cs, .inl rfl, hne, hdigits, Nat.lt_succ_of_le hle⟩

theorem splitLastColon?_eq_some_iff {cs host port : List Char} :
    splitLastColon? cs = some (host, port) ↔ cs = host ++ ':' :: port ∧ ':' ∉ port := by
  unfold splitLastColon?
  dsimp only
  constructor
  · intro h
    split at h
    next colon rest hdrop =>
      rw [Option.some.injEq, Prod.mk.injEq] at h
      obtain ⟨rfl, rfl⟩ := h
      have hhead := List.head?_dropWhile_not (· != ':') cs.reverse
      have hall := List.takeWhile_append_dropWhile (p := (· != ':')) (l := cs.reverse)
      rw [hdrop] at hhead hall
      obtain rfl : colon = ':' := by simpa using hhead
      refine ⟨?_, fun hmem => ?_⟩
      · have hback := congrArg List.reverse hall
        simpa only [List.reverse_append, List.reverse_cons, List.reverse_reverse, List.append_assoc,
          List.singleton_append] using hback.symm
      · have hcolon := List.all_eq_true.mp List.all_takeWhile _ (List.mem_reverse.mp hmem)
        simp at hcolon
    next => contradiction
  · intro hall
    obtain ⟨rfl, hplain⟩ := hall
    have hport : ∀ c ∈ port.reverse, (c != ':') = true := by
      intro c hc
      rw [List.mem_reverse] at hc
      rw [bne_iff_ne]
      intro hcolon
      exact hplain (hcolon ▸ hc)
    have hreverse : (host ++ ':' :: port).reverse = port.reverse ++ ':' :: host.reverse := by simp
    rw [hreverse, List.takeWhile_append_of_pos hport, List.dropWhile_append_of_pos hport]
    simp

theorem isDestination_iff {text : String} : isDestination text = true ↔ IsHostPort text := by
  unfold isDestination IsHostPort
  constructor
  · intro h
    split at h
    next host port hsplit =>
      rw [Bool.and_eq_true, ← isPort_iff] at h
      obtain ⟨htext, hplain⟩ := splitLastColon?_eq_some_iff.mp hsplit
      exact ⟨host, port, htext, by simpa using h.1, hplain, h.2⟩
    next => contradiction
  · intro hall
    obtain ⟨host, port, htext, hhost, hplain, hport⟩ := hall
    rw [splitLastColon?_eq_some_iff.mpr ⟨htext, hplain⟩]
    simp [hhost, isPort_iff.mp hport]

theorem isDestination_eq_false_iff {text : String} :
    isDestination text = false ↔ ¬ IsHostPort text := by
  rw [← isDestination_iff, Bool.not_eq_true]

end Gatehouse
