import Gatehouse.Rdp.Request

namespace Gatehouse.Rdp

/-- Put behind these bytes, CR LF stands there for the first time. -/
def EndsOnce (text : Bytes) : Prop :=
  ∀ before after, text ++ [13, 10] = before ++ 13 :: 10 :: after → after = []

/-- A routing field: a cookie or a redirection, up to its first line end. -/
def IsField (field : Bytes) : Prop :=
  ∃ text, field = text ++ [13, 10] ∧ EndsOnce text ∧
    (Bytes.ofString "Cookie:" <+: text ∨ Bytes.ofString "tsv://" <+: text)

/-- A frame that holds a routing field where one belongs, and the same frame without it. -/
structure Routed (frame field bare : Bytes) : Prop where
  isField : IsField field
  parts : ∃ head tail, head.length = 11 ∧ frame = head ++ field ++ tail ∧ bare = head ++ tail

theorem endsOnce_nil : EndsOnce [] := by
  intro before after h
  have hlength := congrArg List.length h
  simp only [List.nil_append, List.length_append, List.length_cons, List.length_nil] at hlength
  exact List.eq_nil_of_length_eq_zero (by omega)

/-- A byte in front may not make a line end of its own. -/
theorem endsOnce_cons_iff {b : UInt8} {text : Bytes} :
    EndsOnce (b :: text) ↔ EndsOnce text ∧ ∀ more, b = 13 → text ≠ 10 :: more := by
  constructor
  · intro h
    refine ⟨fun before after he => h (b :: before) after ?_, ?_⟩
    · rw [List.cons_append, he, List.cons_append]
    · intro more hb htext
      subst hb htext
      have hnone : more ++ [13, 10] = [] := h [] _ rfl
      simp at hnone
  · intro hall before after he
    obtain ⟨h, hapart⟩ := hall
    cases before with
    | cons c before => exact h before after (List.cons.inj he).2
    | nil =>
      obtain ⟨hb, htext⟩ := List.cons.inj he
      cases text with
      | nil => simp at htext
      | cons c text =>
        obtain ⟨rfl, -⟩ := List.cons.inj htext
        exact absurd rfl (hapart text hb)

/-- The search stops behind the first line end. -/
theorem afterLineEnd?_eq_some_iff {bs rest : Bytes} :
    afterLineEnd? bs = some rest ↔ ∃ text, EndsOnce text ∧ bs = text ++ 13 :: 10 :: rest := by
  constructor
  · intro h
    fun_induction afterLineEnd? bs with
    | case1 tail =>
      obtain rfl := Option.some.inj h
      exact ⟨[], endsOnce_nil, rfl⟩
    | case2 b tail hapart ih =>
      obtain ⟨text, htext, rfl⟩ := ih h
      refine ⟨b :: text, endsOnce_cons_iff.mpr ⟨htext, ?_⟩, rfl⟩
      intro more hb htext
      subst htext
      exact hapart _ hb rfl
    | case3 => contradiction
  · intro hall
    obtain ⟨text, htext, rfl⟩ := hall
    induction text with
    | nil => rfl
    | cons b text ih =>
      obtain ⟨hends, hapart⟩ := endsOnce_cons_iff.mp htext
      rw [List.cons_append, afterLineEnd?, ih hends]
      intro more hb he
      cases text with
      | nil => simp at he
      | cons c text => exact hapart text hb (by rw [(List.cons.inj he).1])

/-- What a text opens with reaches no further than to the first CR behind it. -/
theorem prefix_append_cr_iff {opening text rest : Bytes} (hplain : (13 : UInt8) ∉ opening) :
    opening <+: text ++ 13 :: rest ↔ opening <+: text := by
  constructor
  · intro h
    rcases List.prefix_or_prefix_of_prefix h (List.prefix_append text _) with hshort | ⟨more, rfl⟩
    · exact hshort
    · rw [List.prefix_append_right_inj] at h
      cases more with
      | nil => simp
      | cons b more =>
        obtain ⟨rfl, -⟩ := List.cons_prefix_cons.mp h
        simp at hplain
  · intro h
    exact h.trans (List.prefix_append _ _)

theorem cookie_eq : Bytes.ofString "Cookie:" = [67, 111, 111, 107, 105, 101, 58] := by decide +kernel

theorem redirection_eq : Bytes.ofString "tsv://" = [116, 115, 118, 58, 47, 47] := by decide +kernel

theorem isRouting_iff {bs : Bytes} :
    isRouting bs = true ↔ Bytes.ofString "Cookie:" <+: bs ∨ Bytes.ofString "tsv://" <+: bs := by
  rw [isRouting, Bool.or_eq_true, List.isPrefixOf_iff_prefix, List.isPrefixOf_iff_prefix]

theorem isRouting_append_cr {text : Bytes} (rest : Bytes) :
    isRouting (text ++ 13 :: rest) = true ↔
      Bytes.ofString "Cookie:" <+: text ∨ Bytes.ofString "tsv://" <+: text := by
  have hcookie : (13 : UInt8) ∉ Bytes.ofString "Cookie:" := by simp [cookie_eq]
  have hredirection : (13 : UInt8) ∉ Bytes.ofString "tsv://" := by simp [redirection_eq]
  rw [isRouting_iff, prefix_append_cr_iff hcookie, prefix_append_cr_iff hredirection]

theorem stripRouting_of_routed {frame field bare : Bytes} (h : Routed frame field bare) :
    stripRouting frame = bare := by
  obtain ⟨⟨text, rfl, hends, hopened⟩, head, tail, hhead, rfl, rfl⟩ := h
  have hsplit : head ++ (text ++ [13, 10]) ++ tail = head ++ (text ++ 13 :: 10 :: tail) := by simp
  have htail : afterLineEnd? (text ++ 13 :: 10 :: tail) = some tail :=
    afterLineEnd?_eq_some_iff.mpr ⟨text, hends, rfl⟩
  rw [hsplit]
  simp only [stripRouting, List.drop_left' hhead, List.take_left' hhead,
    (isRouting_append_cr _).mpr hopened, htail, if_true, routingOffset]

-- A field may end in a CR of its own, and of two fields the first alone is removed.
example : stripRouting ([3, 0, 0, 0, 0, 0xe0, 0, 0, 0, 0, 0] ++ Bytes.ofString "tsv://\r\r\nCookie:\r\n") =
    [3, 0, 0, 0, 0, 0xe0, 0, 0, 0, 0, 0] ++ Bytes.ofString "Cookie:\r\n" := by decide +kernel

/-- What is not taken out of a frame was not there. -/
theorem routed_or_stripRouting_eq (frame : Bytes) :
    (∃ field, Routed frame field (stripRouting frame)) ∨ stripRouting frame = frame := by
  unfold stripRouting
  dsimp only
  split
  next hrouting =>
    split
    next tail htail =>
      obtain ⟨text, hends, hrest⟩ := afterLineEnd?_eq_some_iff.mp htail
      rw [hrest, isRouting_append_cr] at hrouting
      have hhead : (frame.take routingOffset).length = 11 := by
        have hlength := congrArg List.length hrest
        simp only [List.length_drop, List.length_append, List.length_cons] at hlength
        rw [List.length_take, routingOffset]
        rw [routingOffset] at hlength
        omega
      refine .inl ⟨text ++ [13, 10], ⟨text, rfl, hends, hrouting⟩, _, tail, hhead, ?_, rfl⟩
      have hall := List.take_append_drop routingOffset frame
      rw [hrest] at hall
      simpa using hall.symm
    next => exact .inr rfl
  next => exact .inr rfl

theorem asksForTls_iff {frame : Bytes} :
    asksForTls frame = true ↔ ∃ a b c p, (p = 1 ∨ p = 3) ∧
      frame = [0x03, 0x00, a, b, c, 0xe0, 0, 0, 0, 0, 0] ++ [1, 0, 8, 0, p, 0, 0, 0] := by
  constructor
  · intro h
    unfold asksForTls at h
    split at h
    next a b c body =>
      rw [Bool.or_eq_true, beq_iff_eq, beq_iff_eq] at h
      rcases h with rfl | rfl
      · exact ⟨a, b, c, 1, .inl rfl, rfl⟩
      · exact ⟨a, b, c, 3, .inr rfl, rfl⟩
    next => contradiction
  · intro hall
    obtain ⟨a, b, c, p, hp, rfl⟩ := hall
    rcases hp with rfl | rfl
    · rfl
    · rfl

/-- The frames that are taken for requests for TLS, with or without a routing field; and what becomes of
any frame, be it one of these or not, when its routing field is removed. -/
theorem requests_and_routing_exact (frame : Bytes) :
    (asksForTls (stripRouting frame) = true ↔ ∃ a b c p field, (p = 1 ∨ p = 3) ∧
      (field = [] ∨ IsField field) ∧
      frame = [0x03, 0x00, a, b, c, 0xe0, 0, 0, 0, 0, 0] ++ field ++ [1, 0, 8, 0, p, 0, 0, 0]) ∧
    (∀ field bare, Routed frame field bare → stripRouting frame = bare) ∧
    ((¬ ∃ field bare, Routed frame field bare) → stripRouting frame = frame) ∧
    ∀ field, IsField field → 11 ≤ frame.length →
      stripRouting (frame.take 11 ++ field ++ frame.drop 11) = frame := by
  refine ⟨⟨?_, ?_⟩, fun field bare => stripRouting_of_routed, ?_, ?_⟩
  · intro h
    obtain ⟨a, b, c, p, hp, hbare⟩ := asksForTls_iff.mp h
    rcases routed_or_stripRouting_eq frame with ⟨field, hfield, head, tail, hhead, hframe, hstrip⟩ | hstrip
    · rw [hbare] at hstrip
      obtain ⟨rfl, rfl⟩ := List.append_inj hstrip hhead.symm
      exact ⟨a, b, c, p, field, hp, .inr hfield, hframe⟩
    · rw [hstrip] at hbare
      exact ⟨a, b, c, p, [], hp, .inl rfl, hbare⟩
  · intro hall
    obtain ⟨a, b, c, p, field, hp, hfield, rfl⟩ := hall
    refine asksForTls_iff.mpr ⟨a, b, c, p, hp, ?_⟩
    rcases hfield with rfl | hfield
    · have hplain : isRouting [1, 0, 8, 0, p, 0, 0, 0] = false := by
        rw [isRouting, cookie_eq, redirection_eq]
        rfl
      exact if_neg (by rw [Bool.not_eq_true]; exact hplain)
    · exact stripRouting_of_routed ⟨hfield, _, _, rfl, rfl, rfl⟩
  · intro hno
    rcases routed_or_stripRouting_eq frame with ⟨field, hfield⟩ | hsame
    · exact absurd ⟨field, _, hfield⟩ hno
    · exact hsame
  · intro field hfield hlong
    exact stripRouting_of_routed ⟨hfield, _, _, List.length_take_of_le hlong, rfl,
      (List.take_append_drop 11 frame).symm⟩

end Gatehouse.Rdp
