import Gatehouse.Proofs.Rdp.Reading

namespace Gatehouse.Rdp

/-- The first instant at which something is so. -/
structure Earliest (P : Nat → Prop) (instant : Nat) : Prop where
  holds : P instant
  least : ∀ {t}, P t → instant ≤ t

/-- What has arrived by an instant of pieces that are awaited from `now` on. -/
def arrivedFrom (now instant : Nat) : List (Nat × Bytes) → Bytes
  | [] => []
  | (wait, piece) :: rest =>
    if now + wait ≤ instant then piece ++ arrivedFrom (now + wait) instant rest else []

/-- When the stream ends behind such pieces, if it does. -/
def endFrom (now : Nat) (ending : Option Nat) : List (Nat × Bytes) → Option Nat
  | [] => ending.map (now + ·)
  | (wait, _) :: rest => endFrom (now + wait) ending rest

namespace Conduct

def arrived (c : Conduct) (instant : Nat) : Bytes := arrivedFrom 0 instant c.pieces

def end? (c : Conduct) : Option Nat := endFrom 0 c.ending c.pieces

end Conduct

theorem le_of_endFrom {now e : Nat} {ending : Option Nat} {ps : List (Nat × Bytes)}
    (h : endFrom now ending ps = some e) : now ≤ e := by
  induction ps generalizing now with
  | nil =>
    obtain ⟨wait, -, rfl⟩ := Option.map_eq_some_iff.mp h
    exact Nat.le_add_right now wait
  | cons p rest ih =>
    have hlater := ih h
    omega

theorem arrivedFrom_cons_of_le {now wait instant : Nat} {piece : Bytes} {rest : List (Nat × Bytes)}
    (h : now + wait ≤ instant) :
    arrivedFrom now instant ((wait, piece) :: rest) =
      piece ++ arrivedFrom (now + wait) instant rest :=
  if_pos h

theorem arrivedFrom_cons_of_lt {now wait instant : Nat} {piece : Bytes} {rest : List (Nat × Bytes)}
    (h : instant < now + wait) : arrivedFrom now instant ((wait, piece) :: rest) = [] :=
  if_neg (Nat.not_le_of_lt h)

theorem arrivedFrom_of_lt {now instant : Nat} {ps : List (Nat × Bytes)} (h : instant < now) :
    arrivedFrom now instant ps = [] := by
  cases ps with
  | nil => rfl
  | cons p rest => exact arrivedFrom_cons_of_lt (by omega)

namespace Negotiator
variable (n : Negotiator)

/-- The client is refused, and so many of its bytes were thrown away so far. -/
def held (since total now : Nat) : Talk := ⟨.holding since, [], false, [], total, now, none⟩

theorem lapse_over {talk : Talk} {v : Verdict} (h : talk.stage = .over v) (instant : Option Nat) :
    n.lapse instant talk = talk := by
  simp only [lapse, h, deadline?]

theorem hear_over {talk : Talk} {v : Verdict} (h : talk.stage = .over v) (instant : Nat)
    (signal : Signal) : talk.hear instant signal = talk := by
  simp only [Talk.hear, h]

theorem play_over {talk : Talk} {v : Verdict} (h : talk.stage = .over v)
    (signals : List (Nat × Signal)) : n.play talk signals = talk := by
  induction signals with
  | nil => rw [play, n.lapse_over h, n.lapse_over h]
  | cons s rest ih =>
    obtain ⟨wait, signal⟩ := s
    rw [play, n.lapse_over h, n.lapse_over h, hear_over h, ih]

theorem lapse_held_of_le {since total now instant : Nat} (h : instant ≤ since + n.holdOpen) :
    n.lapse (some instant) (held since total now) = held since total now := by
  simp only [lapse, deadline?, held, Option.all_some, decide_eq_true_eq, Nat.not_lt_of_le h, if_false]

/-- The time of a hold is up before anything else happens. -/
theorem lapse_held_of_all {since total now : Nat} {instant : Option Nat}
    (h : instant.all (since + n.holdOpen < ·) = true) :
    n.lapse instant (held since total now) =
      ⟨.over .refused, [], false, [], total, since + n.holdOpen, none⟩ := by
  simp only [lapse, deadline?, held, h, if_true, Talk.expire]

theorem lapse_lapse_held (instant : Option Nat) (since total now : Nat) :
    n.lapse instant (n.lapse instant (held since total now)) =
      n.lapse instant (held since total now) := by
  cases h : instant.all (since + n.holdOpen < ·) with
  | true => rw [n.lapse_held_of_all h, n.lapse_over rfl]
  | false =>
    have hstays : n.lapse instant (held since total now) = held since total now := by
      simp only [lapse, deadline?, held, h, Bool.false_eq_true, if_false]
    rw [hstays, hstays]

/-- A hold takes until its time is up or the stream has ended. -/
theorem play_held (total : Nat) {since now : Nat} (h : now ≤ since + n.holdOpen)
    (ps : List (Nat × Bytes)) (ending : Option Nat) :
    ∃ finished, Earliest (fun t => t = since + n.holdOpen ∨ endFrom now ending ps = some t) finished ∧
      (n.play (held since total now) (Conduct.mk ps ending).signals).report =
        ⟨.refused, [], total + (arrivedFrom now finished ps).length, finished⟩ := by
  induction ps generalizing total now with
  | nil =>
    cases ending with
    | none =>
      refine ⟨since + n.holdOpen, ⟨.inl rfl, ?_⟩, ?_⟩
      · rintro t (rfl | hend)
        · exact Nat.le_refl _
        · contradiction
      · change (n.lapse none (n.lapse none (held since total now))).report = _
        rw [lapse_lapse_held, n.lapse_held_of_all rfl]
        rfl
    | some wait =>
      change ∃ finished, _ ∧ (n.play ((n.lapse (some (now + wait)) (n.lapse (some (now + wait))
        (held since total now))).hear (now + wait) .ends) []).report = _
      rw [lapse_lapse_held]
      by_cases hlate : since + n.holdOpen < now + wait
      · refine ⟨since + n.holdOpen, ⟨.inl rfl, ?_⟩, ?_⟩
        · rintro t (rfl | hend)
          · exact Nat.le_refl _
          · have hinstant : now + wait = t := Option.some.inj hend
            omega
        · rw [n.lapse_held_of_all (by simpa using hlate), hear_over rfl, n.play_over rfl]
          rfl
      · refine ⟨now + wait, ⟨.inr rfl, ?_⟩, ?_⟩
        · rintro t (rfl | hend)
          · exact Nat.le_of_not_lt hlate
          · have hinstant : now + wait = t := Option.some.inj hend
            omega
        · rw [n.lapse_held_of_le (Nat.le_of_not_lt hlate), n.play_over rfl]
          rfl
  | cons p rest ih =>
    obtain ⟨wait, piece⟩ := p
    change ∃ finished, _ ∧ (n.play ((n.lapse (some (now + wait)) (n.lapse (some (now + wait))
      (held since total now))).hear (now + wait) (.sends piece))
      (Conduct.mk rest ending).signals).report = _
    rw [lapse_lapse_held]
    by_cases hlate : since + n.holdOpen < now + wait
    · refine ⟨since + n.holdOpen, ⟨.inl rfl, ?_⟩, ?_⟩
      · rintro t (rfl | hend)
        · exact Nat.le_refl _
        · have hafter : now + wait ≤ t := le_of_endFrom hend
          omega
      · rw [n.lapse_held_of_all (by simpa using hlate), hear_over rfl, n.play_over rfl,
          arrivedFrom_cons_of_lt hlate]
        rfl
    · have hheard : (held since total now).hear (now + wait) (.sends piece) =
          held since (total + piece.length) (now + wait) := rfl
      rw [n.lapse_held_of_le (Nat.le_of_not_lt hlate), hheard]
      obtain ⟨finished, hleast, hreport⟩ := ih (total + piece.length) (Nat.le_of_not_lt hlate)
      refine ⟨finished, hleast, ?_⟩
      have hafter : now + wait ≤ finished := by
        rcases hleast.holds with rfl | hend
        · exact Nat.le_of_not_lt hlate
        · exact le_of_endFrom hend
      rw [hreport, arrivedFrom_cons_of_le hafter, List.length_append, Nat.add_assoc]

/-- How a negotiation goes on when `bs` has arrived by `now` and it is not clear what that is. -/
inductive Course (bs : Bytes) (now : Nat) (ps : List (Nat × Bytes)) (ending : Option Nat)
    (talk : Talk) : Prop
  /-- The request is whole in time. What follows it is left on the stream. -/
  | confirmed (length instant : Nat) (later : List (Nat × Bytes))
      (asks : Asks (bs ++ arrivedFrom now n.prefixTimeout ps) length)
      (whole : Earliest (fun t => length ≤ (bs ++ arrivedFrom now t ps).length) instant)
      (report : talk.report = ⟨.proceed, confirm, length, instant⟩)
      (unheard : later <:+ ps)
      (left : talk.unread ++ later.flatMap Prod.snd = (bs ++ ps.flatMap Prod.snd).drop length)
  /-- The time is up, the stream has ended, or what has arrived is no such request. -/
  | refused (since finished : Nat)
      (unasked : ∀ length, ¬ Asks (bs ++ arrivedFrom now n.prefixTimeout ps) length)
      (began : Earliest (fun t => t = n.prefixTimeout ∨ endFrom now ending ps = some t ∨
        Refutes (bs ++ arrivedFrom now t ps)) since)
      (closed : Earliest (fun t => t = since + n.holdOpen ∨ endFrom now ending ps = some t) finished)
      (report : talk.report = ⟨.refused, [], (bs ++ arrivedFrom now finished ps).length, finished⟩)

variable {n} {bs piece : Bytes} {now wait : Nat} {ps rest : List (Nat × Bytes)} {ending : Option Nat}
  {talk : Talk}

/-- A negotiation that the clock turns into a hold before anything else happens. -/
theorem Course.of_late (ps' : List (Nat × Bytes)) (ending' : Option Nat) (hunclear : Unclear bs)
    (hbefore : ∀ t ≤ n.prefixTimeout, arrivedFrom now t ps = [])
    (harrived : ∀ t, arrivedFrom n.prefixTimeout t ps' = arrivedFrom now t ps)
    (hend : endFrom n.prefixTimeout ending' ps' = endFrom now ending ps) :
    n.Course bs now ps ending
      (n.play (held n.prefixTimeout bs.length n.prefixTimeout) (Conduct.mk ps' ending').signals) := by
  obtain ⟨finished, hleast, hreport⟩ := n.play_held bs.length
    (Nat.le_add_right n.prefixTimeout n.holdOpen) ps' ending'
  rw [hend] at hleast
  refine .refused n.prefixTimeout finished ?_ ⟨.inl rfl, ?_⟩ hleast ?_
  · intro length
    rw [hbefore _ (Nat.le_refl _), List.append_nil]
    exact hunclear.not_asks length
  · rintro t (rfl | hended | hrefutes)
    · exact Nat.le_refl _
    · rw [← hend] at hended
      exact le_of_endFrom hended
    · apply Nat.le_of_not_lt
      intro hlt
      rw [hbefore t (Nat.le_of_lt hlt), List.append_nil] at hrefutes
      exact hunclear.not_refutes hrefutes
  · rw [hreport, harrived, List.length_append]

/-- A piece that leaves it unclear is as good as read already. -/
theorem Course.of_unclear (hunclear : Unclear bs) (hmore : Unclear (bs ++ piece))
    (hintime : now + wait ≤ n.prefixTimeout)
    (h : n.Course (bs ++ piece) (now + wait) rest ending talk) :
    n.Course bs now ((wait, piece) :: rest) ending talk := by
  have harrived {t : Nat} (ht : now + wait ≤ t) : bs ++ arrivedFrom now t ((wait, piece) :: rest) =
      bs ++ piece ++ arrivedFrom (now + wait) t rest := by
    rw [arrivedFrom_cons_of_le ht, List.append_assoc]
  cases h with
  | confirmed length instant later asks whole report unheard left =>
    have hshort := hmore.length_lt asks
    refine .confirmed length instant later ?_ ⟨?_, ?_⟩ report ?_ ?_
    · rwa [harrived hintime]
    · have hafter : now + wait ≤ instant := by
        apply Nat.le_of_not_lt
        intro hlt
        have hwhole : length ≤ (bs ++ piece ++ arrivedFrom (now + wait) instant rest).length :=
          whole.holds
        rw [arrivedFrom_of_lt hlt, List.append_nil] at hwhole
        omega
      change length ≤ _
      rw [harrived hafter]
      exact whole.holds
    · intro t ht
      change length ≤ _ at ht
      have hafter : now + wait ≤ t := by
        apply Nat.le_of_not_lt
        intro hlt
        rw [arrivedFrom_cons_of_lt hlt, List.append_nil] at ht
        rw [List.length_append] at hshort
        omega
      rw [harrived hafter] at ht
      exact whole.least ht
    · exact unheard.trans (List.suffix_cons _ _)
    · rw [left, List.flatMap_cons, List.append_assoc]
  | refused since finished unasked began closed report =>
    have hsince : now + wait ≤ since := by
      rcases began.holds with rfl | hended | hrefutes
      · exact hintime
      · exact le_of_endFrom hended
      · apply Nat.le_of_not_lt
        intro hlt
        rw [arrivedFrom_of_lt hlt, List.append_nil] at hrefutes
        exact hmore.not_refutes hrefutes
    have hfinished : now + wait ≤ finished := by
      rcases closed.holds with rfl | hended
      · omega
      · exact le_of_endFrom hended
    refine .refused since finished ?_ ⟨?_, ?_⟩ closed ?_
    · rwa [harrived hintime]
    · rcases began.holds with hup | hended | hrefutes
      · exact .inl hup
      · exact .inr (.inl hended)
      · rw [← harrived hsince] at hrefutes
        exact .inr (.inr hrefutes)
    · rintro t (hup | hended | hrefutes)
      · exact began.least (.inl hup)
      · exact began.least (.inr (.inl hended))
      · apply Nat.le_of_not_lt
        intro hlt
        by_cases hafter : now + wait ≤ t
        · rw [harrived hafter] at hrefutes
          have hleast := began.least (.inr (.inr hrefutes))
          omega
        · rw [arrivedFrom_cons_of_lt (Nat.lt_of_not_le hafter), List.append_nil] at hrefutes
          exact hunclear.not_refutes hrefutes
    · rw [report, harrived hfinished]

theorem Course.of_asks {length : Nat} (hunclear : Unclear bs) (hasks : Asks (bs ++ piece) length)
    (hintime : now + wait ≤ n.prefixTimeout) :
    n.Course bs now ((wait, piece) :: rest) ending
      (Talk.answered (bs ++ piece) length false (now + wait) none) := by
  have hshort := hunclear.length_lt hasks
  have hwhole := (asks_iff.mp hasks).2.1
  refine .confirmed length (now + wait) rest ?_ ⟨?_, ?_⟩ rfl (List.suffix_cons _ _) ?_
  · rw [arrivedFrom_cons_of_le hintime, ← List.append_assoc]
    exact hasks.append _
  · rw [arrivedFrom_cons_of_le (Nat.le_refl _), ← List.append_assoc, List.length_append]
    omega
  · intro t ht
    change length ≤ _ at ht
    apply Nat.le_of_not_lt
    intro hlt
    rw [arrivedFrom_cons_of_lt hlt, List.append_nil] at ht
    omega
  · rw [List.flatMap_cons, ← List.append_assoc, List.drop_append_of_le_length hwhole]
    rfl

theorem Course.of_refutes (hunclear : Unclear bs) (hrefutes : Refutes (bs ++ piece))
    (hintime : now + wait ≤ n.prefixTimeout) :
    n.Course bs now ((wait, piece) :: rest) ending
      (n.play (held (now + wait) (bs ++ piece).length (now + wait))
        (Conduct.mk rest ending).signals) := by
  obtain ⟨finished, hleast, hreport⟩ := n.play_held (bs ++ piece).length
    (Nat.le_add_right (now + wait) n.holdOpen) rest ending
  have hfinished : now + wait ≤ finished := by
    rcases hleast.holds with rfl | hended
    · omega
    · exact le_of_endFrom hended
  refine .refused (now + wait) finished ?_ ⟨?_, ?_⟩ hleast ?_
  · intro length
    rw [arrivedFrom_cons_of_le hintime, ← List.append_assoc]
    exact (hrefutes.append _).not_asks length
  · refine .inr (.inr ?_)
    rw [arrivedFrom_cons_of_le (Nat.le_refl _), ← List.append_assoc]
    exact hrefutes.append _
  · rintro t (rfl | hended | hearlier)
    · exact hintime
    · exact le_of_endFrom hended
    · apply Nat.le_of_not_lt
      intro hlt
      rw [arrivedFrom_cons_of_lt hlt, List.append_nil] at hearlier
      exact hunclear.not_refutes hearlier
  · rw [hreport, arrivedFrom_cons_of_le hfinished, ← List.append_assoc, ← List.length_append]

theorem deadline?_reading : n.deadline? (Talk.reading bs now none).stage = some n.prefixTimeout := by
  simp only [Talk.reading]
  cases announced? bs <;> rfl

theorem expire_reading :
    (Talk.reading bs now none).expire n.prefixTimeout =
      held n.prefixTimeout bs.length n.prefixTimeout := by
  simp only [Talk.expire, Talk.reading]
  cases announced? bs <;> rfl

theorem lapse_reading_of_le {instant : Nat} (h : instant ≤ n.prefixTimeout) :
    n.lapse (some instant) (Talk.reading bs now none) = Talk.reading bs now none := by
  simp only [lapse, deadline?_reading, Option.all_some, decide_eq_true_eq, Nat.not_lt_of_le h,
    if_false]

theorem lapse_reading_of_all {instant : Option Nat} (h : instant.all (n.prefixTimeout < ·) = true) :
    n.lapse instant (Talk.reading bs now none) = held n.prefixTimeout bs.length n.prefixTimeout := by
  simp only [lapse, deadline?_reading, h, if_true, expire_reading]

/-- Who is late finds the client refused already. -/
theorem play_reading_of_late {signal : Signal} {signals : List (Nat × Signal)}
    (h : n.prefixTimeout < now + wait) :
    n.play (Talk.reading bs now none) ((wait, signal) :: signals) =
      n.play (held n.prefixTimeout bs.length n.prefixTimeout)
        ((now + wait - n.prefixTimeout, signal) :: signals) := by
  have hinstant : n.prefixTimeout + (now + wait - n.prefixTimeout) = now + wait := by omega
  have hlapse := n.lapse_lapse_held (some (now + wait)) n.prefixTimeout bs.length n.prefixTimeout
  change n.play ((n.lapse (some (now + wait)) (n.lapse (some (now + wait))
    (Talk.reading bs now none))).hear (now + wait) signal) signals = n.play ((n.lapse
      (some (n.prefixTimeout + (now + wait - n.prefixTimeout))) (n.lapse
      (some (n.prefixTimeout + (now + wait - n.prefixTimeout)))
      (held n.prefixTimeout bs.length n.prefixTimeout))).hear
      (n.prefixTimeout + (now + wait - n.prefixTimeout)) signal) signals
  rw [hinstant, hlapse, lapse_reading_of_all (by simpa using h)]

theorem hear_reading (instant : Nat) (signal : Signal) :
    (Talk.reading bs now none).hear instant signal =
      match signal with
      | .sends more => (Talk.supplied bs more false instant none).goOn
      | .ends => (Talk.supplied bs [] true instant none).goOn := by
  simp only [Talk.hear, Talk.reading, Talk.supplied]
  cases announced? bs <;> cases signal <;> rfl

theorem course_of_play (hunclear : Unclear bs) (hnow : now ≤ n.prefixTimeout)
    (ps : List (Nat × Bytes)) (ending : Option Nat) :
    n.Course bs now ps ending (n.play (Talk.reading bs now none) (Conduct.mk ps ending).signals) := by
  induction ps generalizing bs now with
  | nil =>
    cases ending with
    | none =>
      have hplay : n.play (Talk.reading bs now none) [] =
          n.play (held n.prefixTimeout bs.length n.prefixTimeout) [] := by
        rw [play, play, lapse_reading_of_all rfl, lapse_lapse_held]
      change n.Course bs now [] none (n.play (Talk.reading bs now none) [])
      rw [hplay]
      exact .of_late [] none hunclear (fun _ _ => rfl) (fun _ => rfl) rfl
    | some wait =>
      change n.Course bs now [] (some wait) (n.play (Talk.reading bs now none) [(wait, .ends)])
      by_cases hlate : n.prefixTimeout < now + wait
      · rw [play_reading_of_late hlate]
        refine .of_late [] (some (now + wait - n.prefixTimeout)) hunclear
          (fun _ _ => rfl) (fun _ => rfl) ?_
        simp only [endFrom, Option.map_some, Option.some.injEq]
        omega
      · have hintime := Nat.le_of_not_lt hlate
        have hplay : n.play (Talk.reading bs now none) [(wait, .ends)] =
            Talk.turnedAway bs true (now + wait) none := by
          change n.play ((n.lapse (some (now + wait)) (n.lapse (some (now + wait))
            (Talk.reading bs now none))).hear (now + wait) .ends) [] = _
          rw [lapse_reading_of_le hintime, lapse_reading_of_le hintime, hear_reading]
          simp only
          rw [Talk.goOn_of_unclear _ _ _ hunclear (by rwa [List.append_nil]), if_pos rfl,
            List.append_nil, n.play_over rfl]
        rw [hplay]
        refine .refused (now + wait) (now + wait) ?_ ⟨.inr (.inl rfl), ?_⟩ ⟨.inr rfl, ?_⟩ ?_
        · intro length
          rw [arrivedFrom, List.append_nil]
          exact hunclear.not_asks length
        · rintro t (rfl | hended | hrefutes)
          · exact hintime
          · exact Nat.le_of_eq (Option.some.inj hended)
          · rw [arrivedFrom, List.append_nil] at hrefutes
            exact absurd hrefutes hunclear.not_refutes
        · rintro t (rfl | hended)
          · omega
          · exact Nat.le_of_eq (Option.some.inj hended)
        · rw [arrivedFrom, List.append_nil]
          rfl
  | cons p rest ih =>
    obtain ⟨wait, piece⟩ := p
    change n.Course bs now _ ending (n.play (Talk.reading bs now none)
      ((wait, .sends piece) :: (Conduct.mk rest ending).signals))
    by_cases hlate : n.prefixTimeout < now + wait
    · rw [play_reading_of_late hlate]
      have hinstant : n.prefixTimeout + (now + wait - n.prefixTimeout) = now + wait := by omega
      refine .of_late ((now + wait - n.prefixTimeout, piece) :: rest) ending hunclear
        ?_ ?_ ?_
      · intro t ht
        exact arrivedFrom_cons_of_lt (by omega)
      · intro t
        rw [arrivedFrom, arrivedFrom, hinstant]
      · rw [endFrom, endFrom, hinstant]
    · have hintime := Nat.le_of_not_lt hlate
      change n.Course bs now _ ending (n.play ((n.lapse (some (now + wait)) (n.lapse
        (some (now + wait)) (Talk.reading bs now none))).hear (now + wait) (.sends piece))
        (Conduct.mk rest ending).signals)
      rw [lapse_reading_of_le hintime, lapse_reading_of_le hintime, hear_reading]
      simp only
      rcases unclear_or_clear (bs ++ piece) with hmore | ⟨length, hasks⟩ | hrefutes
      · rw [Talk.goOn_of_unclear _ _ _ hunclear hmore]
        exact .of_unclear hunclear hmore hintime (ih hmore hintime)
      · rw [Talk.goOn_of_asks _ _ _ hunclear hasks, n.play_over rfl]
        exact .of_asks hunclear hasks hintime
      · rw [Talk.goOn_of_refutes _ _ _ hunclear hrefutes]
        exact .of_refutes hunclear hrefutes hintime

/-- Who asks in time is confirmed when the request is whole, and nothing behind it is touched. Who does
not is refused when that is clear, and let go at the end of its stream or of the hold. -/
theorem negotiate_exact (n : Negotiator) (c : Conduct) :
    ((n.negotiate c).verdict = .proceed ↔ ∃ length, Asks (c.arrived n.prefixTimeout) length) ∧
      (∀ length, Asks (c.arrived n.prefixTimeout) length →
        confirm.length = 19 ∧
        ∃ instant, Earliest (fun t => length ≤ (c.arrived t).length) instant ∧
          n.negotiate c = ⟨.proceed, confirm, length, instant⟩ ∧
          ∃ later, later <:+ c.pieces ∧
            (n.converse none c).unread ++ later.flatMap Prod.snd = c.bytes.drop length) ∧
      ((∀ length, ¬ Asks (c.arrived n.prefixTimeout) length) →
        ∃ since finished,
          Earliest (fun t => t = n.prefixTimeout ∨ c.end? = some t ∨ Refutes (c.arrived t)) since ∧
          Earliest (fun t => t = since + n.holdOpen ∨ c.end? = some t) finished ∧
          finished ≤ n.prefixTimeout + n.holdOpen ∧
          n.negotiate c = ⟨.refused, [], (c.arrived finished).length, finished⟩) := by
  have hcourse : n.Course [] 0 c.pieces c.ending (n.converse none c) :=
    course_of_play (.inl (by decide)) (Nat.zero_le _) c.pieces c.ending
  cases hcourse with
  | confirmed length instant later asks whole report unheard left =>
    refine ⟨⟨fun _ => ⟨length, asks⟩, fun _ => congrArg Report.verdict report⟩, ?_,
      fun hnone => absurd asks (hnone length)⟩
    intro length' asks'
    have hsame : length' = length := by
      have hannounced := (asks_iff.mp asks).1
      have hannounced' := (asks_iff.mp asks').1
      rw [Conduct.arrived, ← List.nil_append (arrivedFrom _ _ _), hannounced,
        Option.some.injEq] at hannounced'
      exact hannounced'.symm
    subst hsame
    exact ⟨rfl, instant, whole, report, later, unheard, left⟩
  | refused since finished unasked began closed report =>
    have hverdict : (n.negotiate c).verdict = .refused := congrArg Report.verdict report
    refine ⟨⟨?_, ?_⟩, fun length asks => absurd asks (unasked length), fun _ =>
      ⟨since, finished, began, closed, ?_, report⟩⟩
    · rw [hverdict]
      nofun
    · rintro ⟨length, asks⟩
      exact absurd asks (unasked length)
    · have hsince : since ≤ n.prefixTimeout := began.least (.inl rfl)
      have hfinished : finished ≤ since + n.holdOpen := closed.least (.inl rfl)
      omega

example : (Negotiator.mk 5000 10000).negotiate ⟨[(0, [3, 0]), (40, [0, 19, 14] ++ requestHead ++
    [1, 0, 0, 0] ++ [0x16, 3])], none⟩ = ⟨.proceed, confirm, 19, 40⟩ := by
  decide +kernel

end Negotiator
end Gatehouse.Rdp
