import Gatehouse.Rdp.Negotiation

namespace Gatehouse.Rdp

/-- A stream opens with a frame of a length that asks for TLS, and the frame is there. -/
def Asks (bs : Bytes) (length : Nat) : Prop :=
  ∃ hi lo rest, bs = 0x03 :: 0x00 :: hi :: lo :: rest ∧ length = Bytes.be16 hi lo ∧
    5 ≤ length ∧ length ≤ 512 ∧ length ≤ bs.length ∧
    asksForTls (stripRouting (bs.take length)) = true

/-- A stream opens with a header that is no good, or with a frame that asks for something else. -/
inductive Refutes (bs : Bytes) : Prop
  | header (whole : headerLength ≤ bs.length) (bad : announced? bs = none)
  | frame (length : Nat) (announced : announced? bs = some length) (whole : length ≤ bs.length)
      (other : asksForTls (stripRouting (bs.take length)) = false)

/-- Neither the one nor the other can be told yet. -/
def Unclear (bs : Bytes) : Prop :=
  bs.length < headerLength ∨ ∃ length, announced? bs = some length ∧ bs.length < length

theorem announced?_eq_some_iff {bs : Bytes} {length : Nat} :
    announced? bs = some length ↔ ∃ hi lo rest, bs = 0x03 :: 0x00 :: hi :: lo :: rest ∧
      length = Bytes.be16 hi lo ∧ 5 ≤ length ∧ length ≤ 512 := by
  constructor
  · intro h
    unfold announced? at h
    split at h
    next hi lo rest =>
      dsimp only at h
      split at h
      next hbounds =>
        rw [Option.some.injEq] at h
        subst h
        exact ⟨hi, lo, rest, rfl, rfl, hbounds⟩
      next => contradiction
    next => contradiction
  · rintro ⟨hi, lo, rest, rfl, rfl, hlow, hhigh⟩
    exact if_pos ⟨hlow, hhigh⟩

theorem asks_iff {bs : Bytes} {length : Nat} :
    Asks bs length ↔ announced? bs = some length ∧ length ≤ bs.length ∧
      asksForTls (stripRouting (bs.take length)) = true := by
  constructor
  · rintro ⟨hi, lo, rest, hbs, hlength, hlow, hhigh, hwhole, hasks⟩
    exact ⟨announced?_eq_some_iff.mpr ⟨hi, lo, rest, hbs, hlength, hlow, hhigh⟩, hwhole, hasks⟩
  · rintro ⟨hannounced, hwhole, hasks⟩
    obtain ⟨hi, lo, rest, hbs, hlength, hlow, hhigh⟩ := announced?_eq_some_iff.mp hannounced
    exact ⟨hi, lo, rest, hbs, hlength, hlow, hhigh, hwhole, hasks⟩

theorem headerLength_le_of_announced? {bs : Bytes} {length : Nat}
    (h : announced? bs = some length) : headerLength ≤ bs.length ∧ headerLength ≤ length := by
  obtain ⟨hi, lo, rest, rfl, -, hlow, -⟩ := announced?_eq_some_iff.mp h
  simp only [List.length_cons, headerLength]
  omega

theorem announced?_of_short {bs : Bytes} (h : bs.length < headerLength) : announced? bs = none := by
  cases hannounced : announced? bs with
  | none => rfl
  | some length =>
    have hlong := (headerLength_le_of_announced? hannounced).1
    omega

/-- A whole header says the same whatever follows it. -/
theorem announced?_append {bs : Bytes} (h : headerLength ≤ bs.length) (more : Bytes) :
    announced? (bs ++ more) = announced? bs := by
  rcases bs with _ | ⟨a, _ | ⟨b, _ | ⟨hi, _ | ⟨lo, rest⟩⟩⟩⟩
  · simp [headerLength] at h
  · simp [headerLength] at h
  · simp [headerLength] at h
  · simp [headerLength] at h
  · simp only [List.cons_append]
    by_cases hopening : a = 0x03 ∧ b = 0x00
    · obtain ⟨rfl, rfl⟩ := hopening
      rfl
    · have hnone (tail : Bytes) : announced? (a :: b :: hi :: lo :: tail) = none := by
        cases hannounced : announced? (a :: b :: hi :: lo :: tail) with
        | none => rfl
        | some length =>
          obtain ⟨hi', lo', rest', hbs, -⟩ := announced?_eq_some_iff.mp hannounced
          simp only [List.cons.injEq] at hbs
          exact absurd ⟨hbs.1, hbs.2.1⟩ hopening
      rw [hnone, hnone]

theorem announced?_take {bs : Bytes} (h : headerLength ≤ bs.length) :
    announced? (bs.take headerLength) = announced? bs := by
  have hshort : headerLength ≤ (bs.take headerLength).length := by
    rw [List.length_take]
    omega
  rw [← announced?_append hshort (bs.drop headerLength), List.take_append_drop]

theorem Asks.append {bs : Bytes} {length : Nat} (h : Asks bs length) (more : Bytes) :
    Asks (bs ++ more) length := by
  obtain ⟨hannounced, hwhole, hasks⟩ := asks_iff.mp h
  have hheader := (headerLength_le_of_announced? hannounced).1
  refine asks_iff.mpr ⟨?_, ?_, ?_⟩
  · rw [announced?_append hheader, hannounced]
  · rw [List.length_append]
    omega
  · rw [List.take_append_of_le_length hwhole, hasks]

theorem Refutes.append {bs : Bytes} (h : Refutes bs) (more : Bytes) : Refutes (bs ++ more) := by
  cases h with
  | header whole bad =>
    refine .header ?_ ?_
    · rw [List.length_append]
      omega
    · rw [announced?_append whole, bad]
  | frame length announced whole other =>
    have hheader := (headerLength_le_of_announced? announced).1
    refine .frame length ?_ ?_ ?_
    · rw [announced?_append hheader, announced]
    · rw [List.length_append]
      omega
    · rw [List.take_append_of_le_length whole, other]

theorem Refutes.not_asks {bs : Bytes} (h : Refutes bs) (length : Nat) : ¬ Asks bs length := by
  intro hasks
  obtain ⟨hannounced, -, hyes⟩ := asks_iff.mp hasks
  cases h with
  | header whole bad => simp [bad] at hannounced
  | frame length' announced whole other =>
    rw [announced, Option.some.injEq] at hannounced
    rw [hannounced, hyes] at other
    contradiction

/-- What is not clear yet is shorter than the request it may become. -/
theorem Unclear.length_lt {bs more : Bytes} (h : Unclear bs) {length : Nat}
    (hasks : Asks (bs ++ more) length) : bs.length < length := by
  obtain ⟨hannounced, -, -⟩ := asks_iff.mp hasks
  have hlong := (headerLength_le_of_announced? hannounced).2
  rcases h with hshort | ⟨length', hannounced', hshort⟩
  · omega
  · have hheader := (headerLength_le_of_announced? hannounced').1
    rw [announced?_append hheader, hannounced', Option.some.injEq] at hannounced
    omega

theorem Unclear.not_asks {bs : Bytes} (h : Unclear bs) (length : Nat) : ¬ Asks bs length := by
  intro hasks
  have hwhole := (asks_iff.mp hasks).2.1
  have hshort : bs.length < length := h.length_lt ((List.append_nil bs).symm ▸ hasks)
  omega

theorem Unclear.not_refutes {bs : Bytes} (h : Unclear bs) : ¬ Refutes bs := by
  intro hrefutes
  cases hrefutes with
  | header whole bad =>
    rcases h with hshort | ⟨length, hannounced, -⟩
    · omega
    · simp [bad] at hannounced
  | frame length announced whole other =>
    rcases h with hshort | ⟨length', hannounced, hshort⟩
    · have hheader := (headerLength_le_of_announced? announced).1
      omega
    · rw [announced, Option.some.injEq] at hannounced
      omega

theorem unclear_or_clear (bs : Bytes) : Unclear bs ∨ (∃ length, Asks bs length) ∨ Refutes bs := by
  by_cases hheader : headerLength ≤ bs.length
  · cases hannounced : announced? bs with
    | none => exact .inr (.inr (.header hheader hannounced))
    | some length =>
      by_cases hwhole : length ≤ bs.length
      · cases hasks : asksForTls (stripRouting (bs.take length)) with
        | true => exact .inr (.inl ⟨length, asks_iff.mpr ⟨hannounced, hwhole, hasks⟩⟩)
        | false => exact .inr (.inr (.frame length hannounced hwhole hasks))
      · exact .inl (.inr ⟨length, hannounced, Nat.lt_of_not_le hwhole⟩)
  · exact .inl (.inl (Nat.lt_of_not_le hheader))

namespace Talk
variable (stage : Stage) (all : Bytes) (n : Nat) (ended : Bool) (now : Nat) (broken : Option Nat)

/-- Of all that has arrived the first `n` bytes were taken. -/
def taking : Talk := ⟨stage, all.drop n, ended, [], (all.take n).length, now, broken⟩

/-- All that has arrived was taken, and it is not clear what it is. -/
def reading : Talk :=
  ⟨match announced? all with
    | some length => .frame length all
    | none => .header all, [], false, [], all.length, now, broken⟩

/-- All that has arrived was taken and is not what was asked for. -/
def turnedAway : Talk :=
  ⟨if ended then .over .refused else .holding now, [], ended, [], all.length, now, broken⟩

/-- The request was taken, and the reply sent as far as it gets out. -/
def answered : Talk :=
  match broken with
  | none => ⟨.over .proceed, all.drop n, ended, confirm, n, now, broken⟩
  | some k => ⟨.over .refused, all.drop n, ended, confirm.take k, n, now, broken⟩

theorem fill_taking {m : Nat} (h : n ≤ m) :
    (taking stage all n ended now broken).fill m (all.take n) =
      (all.take m, taking stage all m ended now broken) := by
  have htake : all.take n ++ (all.drop n).take (m - (all.take n).length) = all.take m := by
    rw [List.length_take]
    by_cases hn : n ≤ all.length
    · rw [Nat.min_eq_left hn, ← List.take_add, Nat.add_sub_cancel' h]
    · rw [List.drop_eq_nil_of_le (by omega), List.take_nil, List.append_nil,
        List.take_of_length_le (by omega), List.take_of_length_le (by omega)]
  have hdrop : (all.drop n).drop (m - (all.take n).length) = all.drop m := by
    rw [List.length_take, List.drop_drop]
    by_cases hn : n ≤ all.length
    · rw [Nat.min_eq_left hn, Nat.add_sub_cancel' h]
    · rw [List.drop_eq_nil_of_le (by omega), List.drop_eq_nil_of_le (by omega)]
  simp only [fill, taking, htake, hdrop, ← List.length_append]

theorem refuse_taking : (taking stage all n ended now broken).refuse =
    turnedAway all ended now broken := by
  have htotal : (all.take n).length + (all.drop n).length = all.length := by
    rw [← List.length_append, List.take_append_drop]
  simp only [refuse, hold, taking, turnedAway, htotal]
  rfl

theorem answer_taking {length : Nat} (h : length ≤ all.length) :
    (taking stage all length ended now broken).answer (all.take length) =
      if asksForTls (stripRouting (all.take length)) then answered all length ended now broken
      else turnedAway all ended now broken := by
  have hlength : (all.take length).length = length := List.length_take_of_le h
  rw [answer, refuse_taking]
  split
  · cases broken <;> simp only [taking, answered, hlength]
  · rfl

theorem readFrame_taking {length : Nat} (h : n ≤ length) (hannounced : announced? all = some length) :
    (taking stage all n ended now broken).readFrame length (all.take n) =
      if length ≤ all.length then
        if asksForTls (stripRouting (all.take length)) then answered all length ended now broken
        else turnedAway all ended now broken
      else if ended then turnedAway all ended now broken else reading all now broken := by
  have hshort : length ≤ (all.take length).length ↔ length ≤ all.length := by
    rw [List.length_take]
    omega
  simp only [readFrame, fill_taking _ _ _ _ _ _ h, hshort]
  split
  next hwhole => exact answer_taking _ _ _ _ _ hwhole
  next hpart =>
    rw [refuse_taking]
    have hall : all.take length = all := List.take_of_length_le (by omega)
    have hnone : all.drop length = [] := List.drop_eq_nil_of_le (by omega)
    cases ended with
    | true => rfl
    | false => simp only [taking, reading, hannounced, hall, hnone]

theorem readHeader_taking (h : n ≤ headerLength) :
    (taking stage all n ended now broken).readHeader (all.take n) =
      if headerLength ≤ all.length then
        match announced? all with
        | some length =>
          (taking stage all headerLength ended now broken).readFrame length
            (all.take headerLength)
        | none => turnedAway all ended now broken
      else if ended then turnedAway all ended now broken else reading all now broken := by
  have hshort : headerLength ≤ (all.take headerLength).length ↔ headerLength ≤ all.length := by
    rw [List.length_take]
    omega
  simp only [readHeader, fill_taking _ _ _ _ _ _ h, hshort, refuse_taking]
  split
  next hwhole =>
    have hsame := announced?_take hwhole
    cases hannounced : announced? all <;> simp only [hsame, hannounced]
  next hpart =>
    have hall : all.take headerLength = all := List.take_of_length_le (by omega)
    have hnone : all.drop headerLength = [] := List.drop_eq_nil_of_le (by omega)
    cases ended with
    | true => rfl
    | false => simp only [taking, reading, announced?_of_short (Nat.lt_of_not_le hpart), hall, hnone]

/-- The state of a reader that has taken `bs` when `more` is there to read. -/
def supplied (bs more : Bytes) (ended : Bool) (now : Nat) (broken : Option Nat) : Talk :=
  { reading bs now broken with unread := more, ended := ended }

variable {bs more : Bytes}

theorem supplied_eq (bs more : Bytes) (ended : Bool) (now : Nat) (broken : Option Nat) :
    ∃ stage, supplied bs more ended now broken =
      taking stage (bs ++ more) bs.length ended now broken := by
  refine ⟨(reading bs now broken).stage, ?_⟩
  simp only [supplied, reading, taking, List.drop_left, List.take_left]

/-- How it goes on hangs on nothing but what has arrived. -/
theorem goOn_supplied (h : Unclear bs) :
    (supplied bs more ended now broken).goOn =
      if headerLength ≤ (bs ++ more).length then
        match announced? (bs ++ more) with
        | some length =>
          if length ≤ (bs ++ more).length then
            if asksForTls (stripRouting ((bs ++ more).take length)) then
              answered (bs ++ more) length ended now broken
            else turnedAway (bs ++ more) ended now broken
          else if ended then turnedAway (bs ++ more) ended now broken
          else reading (bs ++ more) now broken
        | none => turnedAway (bs ++ more) ended now broken
      else if ended then turnedAway (bs ++ more) ended now broken
      else reading (bs ++ more) now broken := by
  obtain ⟨stage, hsupplied⟩ := supplied_eq bs more ended now broken
  have hgot : (bs ++ more).take bs.length = bs := List.take_left
  rcases h with hshort | ⟨length, hannounced, hshort⟩
  · have hstage : (supplied bs more ended now broken).stage = .header bs := by
      simp only [supplied, reading, announced?_of_short hshort]
    have hread := readHeader_taking stage (bs ++ more) bs.length ended now broken (by omega)
    rw [hgot, ← hsupplied] at hread
    simp only [goOn, hstage]
    rw [hread]
    cases hlater : announced? (bs ++ more) with
    | none => rfl
    | some length =>
      have hlong := (headerLength_le_of_announced? hlater).2
      simp only [readFrame_taking _ _ _ _ _ _ hlong hlater]
  · have hstage : (supplied bs more ended now broken).stage = .frame length bs := by
      simp only [supplied, reading, hannounced]
    have hheader := (headerLength_le_of_announced? hannounced).1
    have hlater : announced? (bs ++ more) = some length := by
      rw [announced?_append hheader, hannounced]
    have hread := readFrame_taking stage (bs ++ more) bs.length ended now broken
      (Nat.le_of_lt hshort) hlater
    have hall : headerLength ≤ (bs ++ more).length := by
      rw [List.length_append]
      omega
    rw [hgot, ← hsupplied] at hread
    simp only [goOn, hstage]
    rw [hread, if_pos hall, hlater]

theorem goOn_of_unclear (h : Unclear bs) (hall : Unclear (bs ++ more)) :
    (supplied bs more ended now broken).goOn =
      if ended then turnedAway (bs ++ more) ended now broken
      else reading (bs ++ more) now broken := by
  rw [goOn_supplied ended now broken h]
  rcases hall with hshort | ⟨length, hannounced, hshort⟩
  · rw [if_neg (Nat.not_le_of_lt hshort)]
  · have hheader := (headerLength_le_of_announced? hannounced).1
    rw [if_pos hheader, hannounced]
    exact if_neg (Nat.not_le_of_lt hshort)

theorem goOn_of_asks (h : Unclear bs) {length : Nat} (hall : Asks (bs ++ more) length) :
    (supplied bs more ended now broken).goOn = answered (bs ++ more) length ended now broken := by
  obtain ⟨hannounced, hwhole, hasks⟩ := asks_iff.mp hall
  have hheader := (headerLength_le_of_announced? hannounced).1
  rw [goOn_supplied ended now broken h, if_pos hheader, hannounced]
  simp only [if_pos hwhole, if_pos hasks]

theorem goOn_of_refutes (h : Unclear bs) (hall : Refutes (bs ++ more)) :
    (supplied bs more ended now broken).goOn = turnedAway (bs ++ more) ended now broken := by
  rw [goOn_supplied ended now broken h]
  cases hall with
  | header whole bad => rw [if_pos whole, bad]
  | frame length announced whole other =>
    have hheader := (headerLength_le_of_announced? announced).1
    rw [if_pos hheader, announced]
    simp only [if_pos whole, other]
    rfl

end Talk
end Gatehouse.Rdp
