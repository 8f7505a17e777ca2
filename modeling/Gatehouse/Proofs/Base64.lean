import Gatehouse.Base64
import Gatehouse.Proofs.Hello.Wire
import Mathlib.Algebra.Group.Nat.Defs

namespace Gatehouse.Base64

/-- The symbols in the order of their numbers. -/
def alphabet : List Char :=
  "ABCDEFGHIJKLMNOPQRSTUVWXYZabcdefghijklmnopqrstuvwxyz0123456789+/".toList

/-- The byte of a symbol. -/
def letter (n : Nat) : UInt8 := UInt8.ofNat (alphabet.getD n '=').toNat

/-- The lowest bits of a number, the highest of them first. -/
def bits : Nat → Nat → List Bool
  | 0, _ => []
  | width + 1, n => n.testBit width :: bits width n

/-- A text is the standard's form of a byte string: six bits to a symbol, four symbols to a group, and
in the place of each symbol that is not needed an equals sign, for which two zero bits were added. -/
def Spells (text bs : Bytes) : Prop :=
  ∃ (numbers : List Nat) (fill : Nat),
    (∀ n ∈ numbers, n < 64) ∧ fill < 3 ∧ text.length % 4 = 0 ∧
    text = numbers.map letter ++ List.replicate fill pad ∧
    numbers.flatMap (bits 6) =
      bs.flatMap (fun b => bits 8 b.toNat) ++ List.replicate (2 * fill) false

theorem letter_eq_symbol : ∀ n < 64, letter n = symbol n := by decide +kernel

theorem length_bits (width n : Nat) : (bits width n).length = width := by
  induction width with
  | zero => rfl
  | succ width ih => rw [bits, List.length_cons, ih]

theorem bits_congr {width m n : Nat} (h : ∀ i < width, m.testBit i = n.testBit i) :
    bits width m = bits width n := by
  induction width with
  | zero => rfl
  | succ width ih =>
    rw [bits, bits, h width (Nat.lt_succ_self width), ih]
    intro i hi
    exact h i (Nat.lt_succ_of_lt hi)

theorem bits_add {low width : Nat} (h : low < 2 ^ width) (more high : Nat) :
    bits (more + width) (2 ^ width * high + low) = bits more high ++ bits width low := by
  induction more with
  | zero =>
    rw [Nat.zero_add]
    apply bits_congr
    intro i hi
    rw [Nat.testBit_two_pow_mul_add high h, if_pos hi]
  | succ more ih =>
    have hbeyond : ¬ more + width < width := by omega
    rw [Nat.succ_add, bits, ih, Nat.testBit_two_pow_mul_add high h, if_neg hbeyond,
      Nat.add_sub_cancel, bits, List.cons_append]

theorem bits_inj {width m n : Nat} (hm : m < 2 ^ width) (hn : n < 2 ^ width)
    (h : bits width m = bits width n) : m = n := by
  have hbelow : ∀ i < width, m.testBit i = n.testBit i := by
    clear hm hn
    induction width with
    | zero => intro i hi; omega
    | succ width ih =>
      rw [bits, bits, List.cons.injEq] at h
      intro i hi
      rcases Nat.lt_succ_iff_lt_or_eq.mp hi with hlt | rfl
      · exact ih h.2 i hlt
      · exact h.1
  apply Nat.eq_of_testBit_eq
  intro i
  by_cases hi : i < width
  · exact hbelow i hi
  · have hpow : 2 ^ width ≤ 2 ^ i := Nat.pow_le_pow_right (by omega) (by omega)
    rw [Nat.testBit_lt_two_pow (by omega), Nat.testBit_lt_two_pow (by omega)]

theorem flatMap_bits_inj {numbers others : List Nat} (hnumbers : ∀ n ∈ numbers, n < 64)
    (hothers : ∀ n ∈ others, n < 64)
    (h : numbers.flatMap (bits 6) = others.flatMap (bits 6)) : numbers = others := by
  induction numbers generalizing others with
  | nil =>
    cases others with
    | nil => rfl
    | cons n rest => simp [bits] at h
  | cons m ms ih =>
    cases others with
    | nil => simp [bits] at h
    | cons n ns =>
      rw [List.forall_mem_cons] at hnumbers hothers
      rw [List.flatMap_cons, List.flatMap_cons] at h
      obtain ⟨hfirst, hrest⟩ := List.append_inj h (by rw [length_bits, length_bits])
      rw [bits_inj hnumbers.1 hothers.1 hfirst, ih hnumbers.2 hothers.2 hrest]

theorem length_flatMap_bits {α : Type} (width : Nat) (number : α → Nat) (items : List α) :
    (items.flatMap fun a => bits width (number a)).length = width * items.length := by
  induction items with
  | nil => rfl
  | cons a rest ih =>
    rw [List.flatMap_cons, List.length_append, length_bits, ih, List.length_cons, Nat.mul_succ,
      Nat.add_comm]

/-- The numbers of the symbols that stand for bytes. -/
def sextets : Bytes → List Nat
  | a :: b :: c :: rest =>
    a.toNat / 4 :: (a.toNat % 4 * 16 + b.toNat / 16) :: (b.toNat % 16 * 4 + c.toNat / 64) ::
      c.toNat % 64 :: sextets rest
  | [a, b] => [a.toNat / 4, a.toNat % 4 * 16 + b.toNat / 16, b.toNat % 16 * 4]
  | [a] => [a.toNat / 4, a.toNat % 4 * 16]
  | [] => []

/-- How many equals signs end the form of so many bytes. -/
def missing (n : Nat) : Nat := (3 - n % 3) % 3

theorem missing_add_three (n : Nat) : missing (n + 3) = missing n := by
  simp only [missing]
  omega

theorem encode_eq (bs : Bytes) :
    encode bs = (sextets bs).map symbol ++ List.replicate (missing bs.length) pad := by
  fun_induction encode bs with
  | case1 a b c rest ih =>
    have hlength : (a :: b :: c :: rest).length = rest.length + 3 := rfl
    simp only [sextets, List.map_cons, List.cons_append, hlength, missing_add_three, ih]
  | case2 a b => rfl
  | case3 a => rfl
  | case4 => rfl

theorem sextets_lt (bs : Bytes) : ∀ n ∈ sextets bs, n < 64 := by
  fun_induction sextets bs with
  | case1 a b c rest ih =>
    have ha := a.toNat_lt
    have hb := b.toNat_lt
    have hc := c.toNat_lt
    simp only [List.forall_mem_cons]
    refine ⟨?_, ?_, ?_, ?_, ih⟩ <;> omega
  | case2 a b =>
    have ha := a.toNat_lt
    have hb := b.toNat_lt
    simp only [List.forall_mem_cons]
    refine ⟨?_, ?_, ?_, by simp⟩ <;> omega
  | case3 a =>
    have ha := a.toNat_lt
    simp only [List.forall_mem_cons]
    refine ⟨?_, ?_, by simp⟩ <;> omega
  | case4 => simp

/-- Three bytes and their four symbols are one number of 24 bits. -/
theorem bits_of_three (a : Nat) {b c : Nat} (hb : b < 256) (hc : c < 256) :
    bits 6 (a / 4) ++ bits 6 (a % 4 * 16 + b / 16) ++ bits 6 (b % 16 * 4 + c / 64) ++
        bits 6 (c % 64) = bits 8 a ++ bits 8 b ++ bits 8 c := by
  have hsecond : a % 4 * 16 + b / 16 < 2 ^ 6 := by omega
  have hthird : b % 16 * 4 + c / 64 < 2 ^ 6 := by omega
  have hfourth : c % 64 < 2 ^ 6 := by omega
  rw [← bits_add hsecond, ← bits_add hthird, ← bits_add hfourth, ← bits_add hb, ← bits_add hc]
  congr 1
  omega

/-- No bit is lost or changes its place, and those added are zero. -/
theorem bits_sextets (bs : Bytes) :
    (sextets bs).flatMap (bits 6) =
      bs.flatMap (fun b => bits 8 b.toNat) ++ List.replicate (2 * missing bs.length) false := by
  fun_induction sextets bs with
  | case1 a b c rest ih =>
    have hlength : (a :: b :: c :: rest).length = rest.length + 3 := rfl
    have hgroup := bits_of_three a.toNat b.toNat_lt c.toNat_lt
    simp only [List.flatMap_cons, ih, hlength, missing_add_three, ← List.append_assoc, hgroup]
  | case2 a b =>
    have hgroup := bits_of_three a.toNat b.toNat_lt (Nat.zero_lt_succ 255)
    -- The group of a third byte of zeros, less the last symbol.
    have hzeros : bits 8 0 = List.replicate 2 false ++ bits 6 0 := rfl
    rw [Nat.zero_div, Nat.zero_mod, Nat.add_zero, hzeros, ← List.append_assoc] at hgroup
    have hshort := List.append_cancel_right hgroup
    simpa [sextets, missing] using hshort
  | case3 a =>
    have hgroup := bits_of_three a.toNat (Nat.zero_lt_succ 255) (Nat.zero_lt_succ 255)
    have hzeros : bits 8 0 ++ bits 8 0 = List.replicate 4 false ++ (bits 6 0 ++ bits 6 0) := rfl
    simp only [Nat.zero_div, Nat.zero_mod, Nat.add_zero, Nat.zero_mul, List.append_assoc, hzeros]
      at hgroup
    simp only [← List.append_assoc] at hgroup
    have hshort := List.append_cancel_right (List.append_cancel_right hgroup)
    simpa [sextets, missing] using hshort
  | case4 => rfl

theorem length_sextets (bs : Bytes) :
    6 * (sextets bs).length = 8 * bs.length + 2 * missing bs.length := by
  have hlengths := congrArg List.length (bits_sextets bs)
  rw [List.length_append, List.length_replicate, length_flatMap_bits 8 UInt8.toNat bs] at hlengths
  rw [← hlengths]
  exact (length_flatMap_bits 6 id (sextets bs)).symm

/-- The written form is the standard's, and there is no other. -/
theorem spells_iff {text bs : Bytes} : Spells text bs ↔ text = encode bs := by
  constructor
  · rintro ⟨numbers, fill, hnumbers, hfill, hgroups, rfl, hbits⟩
    have hlengths := congrArg List.length hbits
    rw [List.length_append, List.length_replicate, length_flatMap_bits 8 UInt8.toNat bs,
      show (numbers.flatMap (bits 6)).length = 6 * numbers.length from
        length_flatMap_bits 6 id numbers] at hlengths
    rw [List.length_append, List.length_map, List.length_replicate] at hgroups
    have hmissing : fill = missing bs.length := by
      simp only [missing]
      omega
    subst hmissing
    rw [← bits_sextets] at hbits
    have hsextets := flatMap_bits_inj hnumbers (sextets_lt bs) hbits
    rw [encode_eq, ← hsextets, List.map_congr_left fun n hn => letter_eq_symbol n (hnumbers n hn)]
  · rintro rfl
    refine ⟨sextets bs, missing bs.length, sextets_lt bs, Nat.mod_lt _ (by decide), ?_, ?_,
      bits_sextets bs⟩
    · have hlength := length_sextets bs
      rw [encode_eq, List.length_append, List.length_map, List.length_replicate]
      simp only [missing] at hlength ⊢
      omega
    · rw [encode_eq, List.map_congr_left fun n hn => letter_eq_symbol n (sextets_lt bs n hn)]

theorem value?_symbol : ∀ n < 64, value? (symbol n) = some n := by decide +kernel

theorem symbol_ne_pad : ∀ n < 64, symbol n ≠ pad := by decide +kernel

theorem value?_eq_some_iff {b : UInt8} {n : Nat} : value? b = some n ↔ n < 64 ∧ b = symbol n := by
  constructor
  · intro h
    have hall : ∀ m < 256, ∀ n ∈ value? (UInt8.ofNat m), n < 64 ∧ UInt8.ofNat m = symbol n := by
      decide +kernel
    have hbyte := hall b.toNat b.toNat_lt n
    rw [UInt8.ofNat_toNat] at hbyte
    exact hbyte h
  · rintro ⟨hn, rfl⟩
    exact value?_symbol n hn

theorem valuesFrom_symbols {numbers : List Nat} (h : ∀ n ∈ numbers, n < 64) (offset : Nat) :
    valuesFrom offset (numbers.map symbol) = .ok numbers := by
  induction numbers generalizing offset with
  | nil => rfl
  | cons n others ih =>
    rw [List.forall_mem_cons] at h
    rw [List.map_cons, valuesFrom, value?_symbol n h.1, ih h.2]
    rfl

theorem of_valuesFrom {offset : Nat} {text : Bytes} {numbers : List Nat}
    (h : valuesFrom offset text = .ok numbers) :
    (∀ n ∈ numbers, n < 64) ∧ text = numbers.map symbol := by
  induction text generalizing offset numbers with
  | nil =>
    obtain rfl := Except.ok.inj h
    simp
  | cons b rest ih =>
    rw [valuesFrom] at h
    cases hvalue : value? b with
    | none => simp [hvalue] at h
    | some n =>
      obtain ⟨hn, rfl⟩ := value?_eq_some_iff.mp hvalue
      rw [hvalue] at h
      obtain ⟨others, hothers, rfl⟩ := except_map_eq_ok_iff.mp h
      obtain ⟨hall, rfl⟩ := ih hothers
      exact ⟨List.forall_mem_cons.mpr ⟨hn, hall⟩, rfl⟩

theorem checkPadding_eq_ok_iff {first : Nat} {text : Bytes} :
    checkPadding first text = .ok () ↔ text = List.replicate text.length pad := by
  induction text with
  | nil => simp [checkPadding]
  | cons b rest ih =>
    rw [checkPadding, List.length_cons, List.replicate_succ, List.cons.injEq]
    by_cases hb : b = pad
    · rw [if_pos hb, ih]
      simp [hb]
    · rw [if_neg hb]
      simp [hb]

/-- Symbols and then equals signs are read as a last group, if these do not come too early. -/
theorem lastGroup_symbols {numbers : List Nat} (h : ∀ n ∈ numbers, n < 64) {index fill : Nat}
    (hlate : 0 < fill → 2 ≤ index + numbers.length) (offset : Nat) :
    lastGroup index offset (numbers.map symbol ++ List.replicate fill pad) = .ok numbers := by
  induction numbers generalizing index offset with
  | nil =>
    cases fill with
    | zero => rfl
    | succ fill =>
      have hpadding : checkPadding offset (List.replicate fill pad) = .ok () := by
        rw [checkPadding_eq_ok_iff, List.length_replicate]
      have henough : ¬ index < 2 := Nat.not_lt.mpr (hlate (Nat.succ_pos fill))
      rw [List.map_nil, List.nil_append, List.replicate_succ, lastGroup, if_pos rfl,
        if_neg henough, hpadding]
      rfl
  | cons n others ih =>
    rw [List.forall_mem_cons] at h
    have hsooner : 0 < fill → 2 ≤ index + 1 + others.length := by
      intro hfill
      have henough := hlate hfill
      rw [List.length_cons] at henough
      omega
    have hrest := ih h.2 hsooner (offset + 1)
    rw [List.map_cons, List.cons_append, lastGroup, if_neg (symbol_ne_pad n h.1),
      value?_symbol n h.1, hrest]
    rfl

theorem of_lastGroup {index offset : Nat} {text : Bytes} {numbers : List Nat}
    (h : lastGroup index offset text = .ok numbers) :
    (∀ n ∈ numbers, n < 64) ∧ ∃ fill, text = numbers.map symbol ++ List.replicate fill pad := by
  induction text generalizing index offset numbers with
  | nil =>
    obtain rfl := Except.ok.inj h
    exact ⟨by simp, 0, rfl⟩
  | cons b rest ih =>
    rw [lastGroup] at h
    split at h
    next hpad =>
      split at h
      next => contradiction
      next =>
        obtain ⟨_, hpadding, hnone⟩ := except_bind_eq_ok_iff.mp h
        obtain rfl := Except.ok.inj hnone
        refine ⟨by simp, rest.length + 1, ?_⟩
        rw [List.map_nil, List.nil_append, List.replicate_succ,
          ← checkPadding_eq_ok_iff.mp hpadding, hpad]
    next =>
      cases hvalue : value? b with
      | none => simp [hvalue] at h
      | some n =>
        obtain ⟨hn, rfl⟩ := value?_eq_some_iff.mp hvalue
        rw [hvalue] at h
        obtain ⟨others, hothers, rfl⟩ := except_map_eq_ok_iff.mp h
        obtain ⟨hall, fill, rfl⟩ := ih hothers
        exact ⟨List.forall_mem_cons.mpr ⟨hn, hall⟩, fill, rfl⟩

theorem ofNat_eq {n : Nat} {b : UInt8} (h : n % 256 = b.toNat) : UInt8.ofNat n = b := by
  apply UInt8.toNat_inj.mp
  rw [UInt8.toNat_ofNat']
  exact h

theorem decodeValues_sextets (bs : Bytes) : decodeValues (sextets bs) = bs := by
  fun_induction sextets bs with
  | case1 a b c rest ih =>
    have ha := a.toNat_lt
    have hb := b.toNat_lt
    have hc := c.toNat_lt
    rw [decodeValues, ih, ofNat_eq (b := a), ofNat_eq (b := b), ofNat_eq (b := c)] <;> omega
  | case2 a b =>
    have ha := a.toNat_lt
    have hb := b.toNat_lt
    rw [decodeValues, ofNat_eq (b := a), ofNat_eq (b := b)] <;> omega
  | case3 a =>
    have ha := a.toNat_lt
    rw [decodeValues, ofNat_eq (b := a)]
    omega
  | case4 => rfl

/-- A group of four, read and written again. -/
theorem sextets_decodeValues_cons {a b c d : Nat} (ha : a < 64) (hb : b < 64) (hc : c < 64)
    (hd : d < 64) (rest : List Nat) :
    sextets (decodeValues (a :: b :: c :: d :: rest)) =
      a :: b :: c :: d :: sextets (decodeValues rest) := by
  simp only [decodeValues, sextets, UInt8.toNat_ofNat', List.cons.injEq, and_true]
  refine ⟨?_, ?_, ?_, ?_⟩ <;> omega

/-- A last group is written again as it was if its last symbol has no bits beyond the bytes. -/
theorem sextets_decodeValues_last {last : List Nat} (hlast : ∀ n ∈ last, n < 64)
    (hfew : 2 ≤ last.length) (hmany : last.length ≤ 4) (hclean : leftover last = 0) :
    sextets (decodeValues last) = last := by
  match last with
  | [a, b] =>
    simp only [List.forall_mem_cons, leftover] at hlast hclean
    simp only [decodeValues, sextets, UInt8.toNat_ofNat', List.cons.injEq, and_true]
    refine ⟨?_, ?_⟩ <;> omega
  | [a, b, c] =>
    simp only [List.forall_mem_cons, leftover] at hlast hclean
    simp only [decodeValues, sextets, UInt8.toNat_ofNat', List.cons.injEq, and_true]
    refine ⟨?_, ?_, ?_⟩ <;> omega
  | [a, b, c, d] =>
    simp only [List.forall_mem_cons] at hlast
    exact sextets_decodeValues_cons hlast.1 hlast.2.1 hlast.2.2.1 hlast.2.2.2.1 []
  | [] | [_] => exact absurd hfew (by simp)
  | _ :: _ :: _ :: _ :: _ :: _ =>
    simp only [List.length_cons] at hmany
    omega

theorem sextets_decodeValues {last : List Nat} (hwritten : sextets (decodeValues last) = last) :
    ∀ {front : List Nat}, (∀ n ∈ front, n < 64) → front.length % 4 = 0 →
      sextets (decodeValues (front ++ last)) = front ++ last
  | [], _, _ => hwritten
  | [_], _, hwhole | [_, _], _, hwhole | [_, _, _], _, hwhole => by simp at hwhole
  | a :: b :: c :: d :: front, hfront, hwhole => by
    simp only [List.forall_mem_cons] at hfront
    obtain ⟨ha, hb, hc, hd, hrest⟩ := hfront
    have hgroups : front.length % 4 = 0 := by
      simp only [List.length_cons] at hwhole
      omega
    rw [List.cons_append, List.cons_append, List.cons_append, List.cons_append,
      sextets_decodeValues_cons ha hb hc hd, sextets_decodeValues hwritten hrest hgroups]

theorem checkStray_of_whole {text : Bytes} (h : text.length % 4 = 0) : checkStray text = .ok () := by
  unfold checkStray
  split
  next => rw [if_neg (by omega)]
  next => rfl

/-- What is read of a text that is not empty. -/
theorem decode_eq_ok_iff_groups {text bs : Bytes} (h : text ≠ []) :
    decode text = .ok bs ↔ text.length % 4 = 0 ∧ ∃ front last,
      valuesFrom 0 (text.take (text.length - 4)) = .ok front ∧
      lastGroup 0 (text.length - 4) (text.drop (text.length - 4)) = .ok last ∧
      2 ≤ last.length ∧ leftover last = 0 ∧ bs = decodeValues (front ++ last) := by
  have hlength : 0 < text.length := List.length_pos_iff.mpr h
  have hfilled : text.isEmpty = false := List.isEmpty_eq_false_iff.mpr h
  unfold decode
  simp only [except_bind_eq_ok_iff, hfilled, Bool.false_eq_true, if_false, checked_eq_ok_iff,
    Decidable.not_not, Nat.not_lt]
  constructor
  · rintro ⟨_, -, front, hfront, last, hlast, hfew, hpadded, hclean, hbs⟩
    have hwhole : text.length % 4 = 0 := by
      apply Decidable.byContradiction
      intro hpart
      rw [tailLength, if_neg hpart] at hpadded
      omega
    have htail : tailLength text.length = 4 := by
      rw [tailLength, if_pos hwhole]
      omega
    rw [htail] at hfront hlast
    exact ⟨hwhole, front, last, hfront, hlast, hfew, hclean, (Except.ok.inj hbs).symm⟩
  · rintro ⟨hwhole, front, last, hfront, hlast, hfew, hclean, rfl⟩
    have htail : tailLength text.length = 4 := by
      rw [tailLength, if_pos hwhole]
      omega
    rw [htail]
    exact ⟨(), checkStray_of_whole hwhole, front, hfront, last, hlast, hfew, by omega, hclean, rfl⟩

/-- The symbols of bytes are whole groups and a last one, whose last symbol has no bits too many. -/
theorem exists_groups {bs : Bytes} (h : bs ≠ []) :
    ∃ front last, sextets bs = front ++ last ∧ front.length % 4 = 0 ∧
      last.length + missing bs.length = 4 ∧ leftover last = 0 := by
  fun_induction sextets bs with
  | case1 a b c rest ih =>
    rw [show (a :: b :: c :: rest).length = rest.length + 3 from rfl, missing_add_three]
    by_cases hrest : rest = []
    · subst hrest
      exact ⟨[], _, rfl, rfl, rfl, rfl⟩
    · obtain ⟨front, last, hgroups, hwhole, hlast, hclean⟩ := ih hrest
      rw [hgroups]
      refine ⟨_ :: _ :: _ :: _ :: front, last, rfl, ?_, hlast, hclean⟩
      simp only [List.length_cons]
      omega
  | case2 a b => exact ⟨[], _, rfl, rfl, rfl, Nat.mul_mod_left _ _⟩
  | case3 a => exact ⟨[], _, rfl, rfl, rfl, Nat.mul_mod_left _ _⟩
  | case4 => contradiction

theorem decode_encode (bs : Bytes) : decode (encode bs) = .ok bs := by
  by_cases hbs : bs = []
  · subst hbs
    rfl
  · obtain ⟨front, last, hgroups, hwhole, hlast, hclean⟩ := exists_groups hbs
    have hall := sextets_lt bs
    rw [hgroups, List.forall_mem_append] at hall
    have hfill : missing bs.length < 3 := Nat.mod_lt _ (by decide)
    have htext : encode bs =
        front.map symbol ++ (last.map symbol ++ List.replicate (missing bs.length) pad) := by
      rw [encode_eq, hgroups, List.map_append, List.append_assoc]
    have hlength : (encode bs).length = front.length + 4 := by
      rw [htext, List.length_append, List.length_append, List.length_map, List.length_map,
        List.length_replicate, hlast]
    have hstart : (front.map symbol).length = (encode bs).length - 4 := by
      rw [List.length_map, hlength, Nat.add_sub_cancel]
    refine (decode_eq_ok_iff_groups ?_).mpr ⟨by omega, front, last, ?_, ?_, by omega, hclean, ?_⟩
    · intro hempty
      rw [hempty, List.length_nil] at hlength
      omega
    · rw [htext, List.take_left' (by rw [hstart, htext])]
      exact valuesFrom_symbols hall.1 0
    · rw [htext, List.drop_left' (by rw [hstart, htext])]
      exact lastGroup_symbols hall.2 (fun _ => by omega) _
    · rw [← hgroups, decodeValues_sextets]

theorem eq_encode_of_decode {text bs : Bytes} (h : decode text = .ok bs) : text = encode bs := by
  by_cases hempty : text = []
  · subst hempty
    obtain rfl := Except.ok.inj h
    rfl
  · obtain ⟨hwhole, front, last, hfront, hlast, hfew, hclean, rfl⟩ :=
      (decode_eq_ok_iff_groups hempty).mp h
    obtain ⟨hfrontAll, hfrontText⟩ := of_valuesFrom hfront
    obtain ⟨hlastAll, fill, hlastText⟩ := of_lastGroup hlast
    have hpositive : 0 < text.length := List.length_pos_iff.mpr hempty
    have hfrontLength : front.length = text.length - 4 := by
      have hlengths := congrArg List.length hfrontText
      rw [List.length_take, List.length_map] at hlengths
      omega
    have hlastLength : last.length + fill = 4 := by
      have hlengths := congrArg List.length hlastText
      rw [List.length_drop, List.length_append, List.length_map, List.length_replicate] at hlengths
      omega
    have hsextets : sextets (decodeValues (front ++ last)) = front ++ last :=
      sextets_decodeValues (sextets_decodeValues_last hlastAll hfew (by omega) hclean) hfrontAll
        (by omega)
    have hfill : fill = missing (decodeValues (front ++ last)).length := by
      have hlengths := length_sextets (decodeValues (front ++ last))
      rw [hsextets, List.length_append] at hlengths
      simp only [missing] at hlengths ⊢
      omega
    calc text = text.take (text.length - 4) ++ text.drop (text.length - 4) :=
          (List.take_append_drop _ _).symm
      _ = (front ++ last).map symbol ++ List.replicate fill pad := by
          rw [hfrontText, hlastText, List.map_append, List.append_assoc]
      _ = encode (decodeValues (front ++ last)) := by rw [encode_eq, hsextets, ← hfill]

/-- The texts that can be read are those that are written. -/
theorem decode_eq_ok_iff {text bs : Bytes} : decode text = .ok bs ↔ text = encode bs := by
  constructor
  · intro h
    exact eq_encode_of_decode h
  · rintro rfl
    exact decode_encode bs

/-- The bits of the second symbol that belong to no byte are not zero. -/
example : decode [65, 66, pad, pad] = .error (.invalidLastSymbol 66 1) := rfl

end Gatehouse.Base64
