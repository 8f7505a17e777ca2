import Gatehouse.Proofs.Hello.Grammar

namespace Gatehouse.Hello

variable {raw message : Bytes} {e : Error}

theorem takeRecord_append_of_ok {payload rest : Bytes} (h : takeRecord raw = .ok (payload, rest))
    (more : Bytes) : takeRecord (raw ++ more) = .ok (payload, rest ++ more) := by
  obtain ⟨f, rfl, fits, rfl⟩ := takeRecord_eq_ok_iff.mp h
  rw [List.append_assoc]
  exact takeRecord_bytes f fits (rest ++ more)

/-- The header of a record that is refused is there in full. -/
theorem takeRecord_append_of_error (h : takeRecord raw = .error e) (hne : e ≠ .incomplete)
    (more : Bytes) : takeRecord (raw ++ more) = .error e := by
  unfold takeRecord at h
  split at h
  next content major minor hi lo rest =>
    dsimp only at h
    simp only [List.cons_append, takeRecord]
    split at h
    next hcontent => rw [if_pos hcontent, h]
    next hcontent =>
      rw [if_neg hcontent]
      split at h
      next hlarge => rw [if_pos hlarge, h]
      next =>
        split at h
        next => exact absurd (Except.error.inj h).symm hne
        next => contradiction
  next => exact absurd (Except.error.inj h).symm hne

theorem reassemble_append_of_ok {whole rest : Bytes} (h : reassemble message raw = .ok (whole, rest))
    (more : Bytes) : reassemble message (raw ++ more) = .ok (whole, rest ++ more) := by
  obtain ⟨fs, hfs, rfl⟩ := reassemble_eq_ok_iff.mp h
  exact reassemble_eq_ok_iff.mpr ⟨fs, hfs, by rw [List.append_assoc]⟩

theorem reassemble_append_of_error (h : reassemble message raw = .error e) (hne : e ≠ .incomplete)
    (more : Bytes) : reassemble message (raw ++ more) = .error e := by
  fun_induction reassemble message raw with
  | case1 message raw cause hcause =>
    obtain rfl := Except.error.inj h
    exact reassemble_of_error (takeRecord_append_of_error hcause hne more)
  | case2 message raw payload rest htake joined hunknown ih =>
    have hpending : Pending joined := by simp [Pending, hunknown]
    rw [reassemble_of_pending (takeRecord_append_of_ok htake more) hpending]
    exact ih h
  | case3 message raw payload rest htake joined needed hneeded hshort ih =>
    have hpending : Pending joined := by simpa [Pending, hneeded] using hshort
    rw [reassemble_of_pending (takeRecord_append_of_ok htake more) hpending]
    exact ih h
  | case4 message raw payload rest htake joined needed hneeded hshort hlong =>
    rw [reassemble_of_ok (takeRecord_append_of_ok htake more), hneeded]
    dsimp only
    rw [if_neg hshort, if_pos hlong, h]
  | case5 => contradiction

theorem parse_append_of_ok {p : Parsed} (h : parse raw = .ok p) (more : Bytes) :
    parse (raw ++ more) = .ok { p with rest := p.rest ++ more } := by
  obtain ⟨fs, message, hcarry, hsent, hrecords, rfl⟩ := parse_eq_ok_iff.mp h
  exact parse_eq_ok_iff.mpr ⟨fs, message, hcarry, hsent, hrecords, List.append_assoc _ _ _⟩

/-- What is wrong with a message is said once all of it is there. -/
theorem parse_append_of_error (h : parse raw = .error e) (hne : e ≠ .incomplete) (more : Bytes) :
    parse (raw ++ more) = .error e := by
  unfold parse at h ⊢
  cases hjoined : reassemble [] raw with
  | error cause =>
    rw [hjoined] at h
    obtain rfl : cause = e := Except.error.inj h
    rw [reassemble_append_of_error hjoined hne more]
    rfl
  | ok found =>
    obtain ⟨message, rest⟩ := found
    rw [reassemble_append_of_ok hjoined more]
    rw [hjoined] at h
    cases hread : parseMessage message with
    | error cause =>
      simp only [bind, Except.bind, hread] at h ⊢
      exact h
    | ok hello =>
      simp only [bind, Except.bind, hread] at h
      contradiction

/-- The records of a hello are read without anything behind them. -/
theorem parse_records {p : Parsed} (h : parse raw = .ok p) :
    parse p.records = .ok ⟨p.hello, p.records, []⟩ := by
  obtain ⟨fs, message, hcarry, hsent, hrecords, -⟩ := parse_eq_ok_iff.mp h
  exact parse_eq_ok_iff.mpr ⟨fs, message, hcarry, hsent, hrecords, (List.append_nil _).symm⟩

theorem records_prefix {p : Parsed} (h : parse raw = .ok p) : p.records <+: raw := by
  obtain ⟨_, _, _, _, _, rfl⟩ := parse_eq_ok_iff.mp h
  exact List.prefix_append p.records p.rest

/-- Enough has arrived to tell whether there is a hello. -/
def Decided (raw : Bytes) : Prop := parse raw ≠ .error .incomplete

/-- What is found at the start of a stream: a hello and its records, or what is wrong. -/
def found (raw : Bytes) : Except Error (ClientHello × Bytes) :=
  (parse raw).map fun p => (p.hello, p.records)

theorem Decided.parse_append (h : Decided raw) (more : Bytes) :
    (∃ p, parse raw = .ok p ∧ parse (raw ++ more) = .ok { p with rest := p.rest ++ more }) ∨
      ∃ e, parse raw = .error e ∧ parse (raw ++ more) = .error e := by
  cases hread : parse raw with
  | ok p => exact .inl ⟨p, rfl, parse_append_of_ok hread more⟩
  | error e =>
    have hne : e ≠ .incomplete := fun he => h (he ▸ hread)
    exact .inr ⟨e, rfl, parse_append_of_error hread hne more⟩

theorem Decided.found_append (h : Decided raw) (more : Bytes) : found (raw ++ more) = found raw := by
  rcases h.parse_append more with ⟨p, hread, hlater⟩ | ⟨e, hread, hlater⟩
  · simp [found, hread, hlater, Except.map]
  · simp [found, hread, hlater]

/-- Short of the records of a hello nothing can be told, for what could be told of them would be told of
the whole hello. -/
theorem parse_of_part {p : Parsed} (h : parse raw = .ok p) {part : Bytes} (hpart : part <+: p.records)
    (hshort : part ≠ p.records) : parse part = .error .incomplete := by
  apply Classical.byContradiction
  intro hdecided
  obtain ⟨more, hrecords⟩ := hpart
  have hwhole := parse_records h
  rw [← hrecords] at hwhole
  rcases Decided.parse_append hdecided more with ⟨q, hread, hlater⟩ | ⟨e, hread, hlater⟩
  · rw [hlater, hrecords, Except.ok.injEq, Parsed.mk.injEq] at hwhole
    have hfits : q.records <+: part := records_prefix hread
    rw [hwhole.2.1] at hfits
    exact hshort (List.IsPrefix.eq_of_length_le ⟨more, hrecords⟩ hfits.length_le)
  · rw [hlater] at hwhole
    contradiction

/-- A stream is decided by the records of its hello and not by less, or by what is first found wrong with
it, and it stays decided so. -/
theorem parse_stays_decided (raw : Bytes) :
    (∀ p, parse raw = .ok p →
      (∀ part, part <+: p.records → part ≠ p.records → parse part = .error .incomplete) ∧
      ∀ more, parse (raw ++ more) = .ok { p with rest := p.rest ++ more }) ∧
    (∀ e, parse raw = .error e → e ≠ .incomplete → ∀ more, parse (raw ++ more) = .error e) ∧
    ∀ earlier, earlier <+: raw → Decided earlier → found earlier = found raw := by
  refine ⟨fun p h => ⟨fun part => parse_of_part h, parse_append_of_ok h⟩,
    fun e => parse_append_of_error, ?_⟩
  intro earlier hearlier hdecided
  obtain ⟨more, rfl⟩ := hearlier
  exact (hdecided.found_append more).symm

end Gatehouse.Hello
