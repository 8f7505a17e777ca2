import Gatehouse.Proofs.Settings.Layers

namespace Gatehouse.Settings

/-- A rule of the section for the listener is broken, and reported like this. -/
inductive Listener.Breaks (s : Listener) : Problem → Prop
  | address (unread : SocketAddress.parse? s.bindAddress = none) :
      Breaks s ⟨"listener.bind_address", "'" ++ s.bindAddress ++ "' is not a socket address"⟩
  | connections (zero : s.maxConnections = 0) :
      Breaks s ⟨"listener.max_connections", "must be > 0"⟩
  | handshake (zero : s.handshakeTimeoutSecs = 0) :
      Breaks s ⟨"listener.handshake_timeout_secs", "must be > 0"⟩

inductive Tls.Breaks (s : Tls) (disguised : Bool) : Problem → Prop
  | missing (certificate : s.certPath = none) (key : s.keyPath = none) (plain : disguised = false) :
      Breaks s disguised ⟨"tls", "cert_path and key_path are required without mimicry"⟩
  | half (half : s.certPath.isSome ≠ s.keyPath.isSome) :
      Breaks s disguised ⟨"tls", "cert_path and key_path must be set together"⟩

inductive SessionTickets.Breaks (s : SessionTickets) : Problem → Prop
  | sources (text : s.keysBase64.isSome = true) (file : s.keyFile.isSome = true) :
      Breaks s ⟨"session_tickets", "keys_base64 and key_file are mutually exclusive"⟩
  | keys {text : String} {cause : Ticket.MaterialError} (given : s.keysBase64 = some text)
      (alone : s.keyFile = none) (unread : Ticket.KeyList.ofBase64 text = .error cause) :
      Breaks s ⟨"session_tickets.keys_base64", (Ticket.LoadError.material cause).message⟩
  | file (given : s.keyFile = some "") (alone : s.keysBase64 = none) :
      Breaks s ⟨"session_tickets.key_file", "must not be empty"⟩
  | interval (zero : s.rotationIntervalSecs = 0) :
      Breaks s ⟨"session_tickets.rotation_interval_secs", "must be > 0"⟩
  | noneKept (zero : s.maxKeys = some 0) :
      Breaks s ⟨"session_tickets.max_keys", "must be > 0"⟩
  | noFile (given : s.maxKeys.isSome = true) (fileless : s.keyFile = none) :
      Breaks s ⟨"session_tickets.max_keys", "only applies to a key_file"⟩

inductive ReactionRule.Breaks (rule : ReactionRule) : Problem → Prop
  | deadEnd (nothing : rule.leaf = .none) (delayed : rule.delays ≠ []) :
      Breaks rule ⟨fieldUnder "reaction" (rule.delays.length - 1),
        "a delayed reaction must end in alert, close or reflect"⟩
  | destination {destination : String} (reflects : rule.leaf = .reflect destination)
      (bad : ¬ IsHostPort destination) :
      Breaks rule ⟨fieldUnder "reaction" rule.delays.length ++ ".destination", "must be host:port"⟩

/-- The times of a protocol are looked at only if one is spoken. -/
inductive Mimicry.Breaks (s : Mimicry) : Problem → Prop
  | opening (spoken : s.protocol.isSome = true) (zero : s.prefixTimeoutSecs = 0) :
      Breaks s ⟨"mimicry.prefix_timeout_secs", "must be > 0"⟩
  | hold (spoken : s.protocol.isSome = true) (zero : s.holdOpenSecs = 0) :
      Breaks s ⟨"mimicry.hold_open_secs", "must be > 0"⟩

inductive Forwarding.Breaks (s : Forwarding) : Problem → Prop
  | address (bad : ¬ IsHostPort s.forwardAddress) :
      Breaks s ⟨"upstream.forward_address", "must be host:port"⟩
  | connect (zero : s.connectTimeoutSecs = 0) :
      Breaks s ⟨"upstream.connect_timeout_secs", "must be > 0"⟩

inductive Observability.Breaks (s : Observability) : Problem → Prop
  | level (unknown : s.logLevel ∉ ["trace", "debug", "info", "warn", "error"]) :
      Breaks s ⟨"observability.log_level", "unknown level '" ++ s.logLevel ++ "'"⟩
  | address (enabled : s.metricsEnabled = true)
      (unread : SocketAddress.parse? s.metricsAddress = none) :
      Breaks s ⟨"observability.metrics_address", "must be a socket address"⟩

/-- The sections, in the order in which they are judged. -/
inductive Section
  | listener
  | tls
  | sessionTickets
  | reaction
  | mimicry
  | forwarding
  | observability
deriving DecidableEq

namespace Section

def all : List Section :=
  [.listener, .tls, .sessionTickets, .reaction, .mimicry, .forwarding, .observability]

/-- What the fields of a section's problems start with. -/
def name : Section → String
  | .listener => "listener"
  | .tls => "tls"
  | .sessionTickets => "session_tickets"
  | .reaction => "reaction"
  | .mimicry => "mimicry"
  | .forwarding => "upstream"
  | .observability => "observability"

/-- Two settings say the same of all that a section is judged by, which is what the section says, and for
the certificate also whether a protocol is spoken before TLS. -/
def Agree (s s' : Settings) : Section → Prop
  | .listener => s.listener = s'.listener
  | .tls => s.tls = s'.tls ∧ s.mimicry.protocol.isSome = s'.mimicry.protocol.isSome
  | .sessionTickets => s.sessionTickets = s'.sessionTickets
  | .reaction => s.reaction = s'.reaction
  | .mimicry => s.mimicry = s'.mimicry
  | .forwarding => s.forwarding = s'.forwarding
  | .observability => s.observability = s'.observability

/-- A rule of a section is broken. -/
def Breaks (s : Settings) : Section → Problem → Prop
  | .listener => s.listener.Breaks
  | .tls => s.tls.Breaks s.mimicry.protocol.isSome
  | .sessionTickets => s.sessionTickets.Breaks
  | .reaction => s.reaction.Breaks
  | .mimicry => s.mimicry.Breaks
  | .forwarding => s.forwarding.Breaks
  | .observability => s.observability.Breaks

/-- What a section is judged to lack. -/
def problems (s : Settings) : Section → List Problem
  | .listener => s.listener.problems
  | .tls => s.tls.problems s.mimicry.protocol.isSome
  | .sessionTickets => s.sessionTickets.problems
  | .reaction => s.reaction.problems "reaction"
  | .mimicry => s.mimicry.problems
  | .forwarding => s.forwarding.problems
  | .observability => s.observability.problems

theorem mem_all (part : Section) : part ∈ all := by
  cases part <;> simp [all]

theorem name_inj {part part' : Section} (h : part.name.toList = part'.name.toList) : part = part' := by
  revert h
  cases part <;> cases part' <;> decide

end Section

/-- The name of the section that a problem is about: its field up to the first dot. -/
def Problem.place (p : Problem) : List Char := p.field.toList.takeWhile (· != '.')

/-- The problems of settings that are about a section. -/
def about (s : Settings) (part : Section) : List Problem :=
  s.problems.filter fun p => p.place == part.name.toList

theorem mem_reportIf {violated : Bool} {field message : String} {p : Problem} :
    p ∈ reportIf violated field message ↔ violated = true ∧ p = ⟨field, message⟩ := by
  unfold reportIf
  split <;> simp [*]

theorem mem_mustBePositive {n : UInt64} {field : String} {p : Problem} :
    p ∈ mustBePositive n field ↔ n = 0 ∧ p = ⟨field, "must be > 0"⟩ := by
  rw [mustBePositive, mem_reportIf, beq_iff_eq]

theorem isSocketAddress_eq_false_iff {text : String} :
    isSocketAddress text = false ↔ SocketAddress.parse? text = none := by
  rw [isSocketAddress, Option.isSome_eq_false_iff, Option.isNone_iff_eq_none]

theorem Listener.mem_problems {s : Listener} {p : Problem} : p ∈ s.problems ↔ s.Breaks p := by
  simp only [Listener.problems, List.mem_append, mem_reportIf, mem_mustBePositive, Bool.not_eq_true',
    isSocketAddress_eq_false_iff]
  constructor
  · intro h
    rcases h with (⟨unread, rfl⟩ | ⟨zero, rfl⟩) | ⟨zero, rfl⟩
    · exact .address unread
    · exact .connections zero
    · exact .handshake zero
  · intro h
    cases h with
    | address unread => exact .inl (.inl ⟨unread, rfl⟩)
    | connections zero => exact .inl (.inr ⟨zero, rfl⟩)
    | handshake zero => exact .inr ⟨zero, rfl⟩

theorem Tls.mem_problems {s : Tls} {disguised : Bool} {p : Problem} :
    p ∈ s.problems disguised ↔ s.Breaks disguised p := by
  unfold Tls.problems
  constructor
  · intro h
    cases hcert : s.certPath with
    | none =>
      cases hkey : s.keyPath with
      | none =>
        simp only [hcert, hkey, mem_reportIf, Bool.not_eq_true'] at h
        obtain ⟨plain, rfl⟩ := h
        exact .missing hcert hkey plain
      | some key =>
        simp only [hcert, hkey, List.mem_singleton] at h
        subst h
        exact .half (by simp [hcert, hkey])
    | some certificate =>
      cases hkey : s.keyPath with
      | none =>
        simp only [hcert, hkey, List.mem_singleton] at h
        subst h
        exact .half (by simp [hcert, hkey])
      | some key => simp [hcert, hkey] at h
  · intro h
    cases h with
    | missing certificate key plain => simp [certificate, key, plain, reportIf]
    | half half =>
      cases hcert : s.certPath <;> cases hkey : s.keyPath <;> simp [hcert, hkey] at half ⊢

theorem SessionTickets.breaks_of_source {s : SessionTickets} {p : Problem}
    (h : p ∈ s.sourceProblems) : s.Breaks p := by
  unfold sourceProblems at h
  split at h
  next text path htext hfile =>
    obtain rfl := List.mem_singleton.mp h
    exact .sources (by rw [htext]; rfl) (by rw [hfile]; rfl)
  next text htext hfile =>
    split at h
    next => simp at h
    next cause hcause =>
      obtain rfl := List.mem_singleton.mp h
      exact .keys htext hfile hcause
  next path htext hfile =>
    rw [mem_reportIf, String.isEmpty_iff] at h
    obtain ⟨rfl, rfl⟩ := h
    exact .file hfile htext
  next => simp at h

theorem SessionTickets.mem_problems {s : SessionTickets} {p : Problem} :
    p ∈ s.problems ↔ s.Breaks p := by
  simp only [SessionTickets.problems, List.mem_append, mem_reportIf, mem_mustBePositive, beq_iff_eq,
    Bool.and_eq_true, Option.isNone_iff_eq_none]
  constructor
  · intro h
    rcases h with ((source | ⟨zero, rfl⟩) | ⟨zero, rfl⟩) | ⟨⟨given, fileless⟩, rfl⟩
    · exact breaks_of_source source
    · exact .interval zero
    · exact .noneKept zero
    · exact .noFile given fileless
  · intro h
    cases h with
    | sources text file =>
      refine .inl (.inl (.inl ?_))
      obtain ⟨text, htext⟩ := Option.isSome_iff_exists.mp text
      obtain ⟨path, hfile⟩ := Option.isSome_iff_exists.mp file
      simp [sourceProblems, htext, hfile]
    | keys given alone unread =>
      refine .inl (.inl (.inl ?_))
      simp [sourceProblems, given, alone, unread]
    | file given alone =>
      refine .inl (.inl (.inl ?_))
      simp [sourceProblems, given, alone, reportIf]
    | interval zero => exact .inl (.inl (.inr ⟨zero, rfl⟩))
    | noneKept zero => exact .inl (.inr ⟨zero, rfl⟩)
    | noFile given fileless => exact .inr ⟨⟨given, fileless⟩, rfl⟩

theorem ReactionRule.mem_problems {rule : ReactionRule} {p : Problem} :
    p ∈ rule.problems "reaction" ↔ rule.Breaks p := by
  rw [ReactionRule.problems_eq]
  constructor
  · intro h
    split at h
    next hleaf =>
      rw [mem_reportIf, Bool.not_eq_true', List.isEmpty_eq_false_iff] at h
      obtain ⟨hdelayed, rfl⟩ := h
      exact .deadEnd hleaf hdelayed
    next destination hleaf =>
      rw [mem_reportIf, Bool.not_eq_true', isDestination_eq_false_iff] at h
      obtain ⟨hbad, rfl⟩ := h
      exact .destination hleaf hbad
    next => simp at h
  · intro h
    cases h with
    | deadEnd nothing delayed => simp [nothing, delayed, reportIf]
    | destination reflects bad => simp [reflects, isDestination_eq_false_iff.mpr bad, reportIf]

theorem Mimicry.mem_problems {s : Mimicry} {p : Problem} : p ∈ s.problems ↔ s.Breaks p := by
  unfold Mimicry.problems
  constructor
  · intro h
    split at h
    next => simp at h
    next hspoken =>
      rw [Bool.not_eq_true, Option.isNone_eq_false_iff] at hspoken
      rw [List.mem_append, mem_mustBePositive, mem_mustBePositive] at h
      rcases h with ⟨zero, rfl⟩ | ⟨zero, rfl⟩
      · exact .opening hspoken zero
      · exact .hold hspoken zero
  · intro h
    cases h with
    | opening spoken zero =>
      simp [Option.isSome_iff_ne_none.mp spoken, mem_mustBePositive, zero]
    | hold spoken zero =>
      simp [Option.isSome_iff_ne_none.mp spoken, mem_mustBePositive, zero]

theorem Forwarding.mem_problems {s : Forwarding} {p : Problem} : p ∈ s.problems ↔ s.Breaks p := by
  simp only [Forwarding.problems, List.mem_append, mem_reportIf, mem_mustBePositive,
    Bool.not_eq_true', isDestination_eq_false_iff]
  constructor
  · intro h
    rcases h with ⟨bad, rfl⟩ | ⟨zero, rfl⟩
    · exact .address bad
    · exact .connect zero
  · intro h
    cases h with
    | address bad => exact .inl ⟨bad, rfl⟩
    | connect zero => exact .inr ⟨zero, rfl⟩

theorem Observability.mem_problems {s : Observability} {p : Problem} :
    p ∈ s.problems ↔ s.Breaks p := by
  simp only [Observability.problems, List.mem_append, mem_reportIf, Bool.not_eq_true',
    Bool.and_eq_true, isSocketAddress_eq_false_iff, List.contains_eq_mem, decide_eq_false_iff_not]
  constructor
  · intro h
    rcases h with ⟨unknown, rfl⟩ | ⟨⟨enabled, unread⟩, rfl⟩
    · exact .level unknown
    · exact .address enabled unread
  · intro h
    cases h with
    | level unknown => exact .inl ⟨unknown, rfl⟩
    | address enabled unread => exact .inr ⟨⟨enabled, unread⟩, rfl⟩

theorem Section.mem_problems {s : Settings} {part : Section} {p : Problem} :
    p ∈ part.problems s ↔ part.Breaks s p := by
  cases part with
  | listener => exact Listener.mem_problems
  | tls => exact Tls.mem_problems
  | sessionTickets => exact SessionTickets.mem_problems
  | reaction => exact ReactionRule.mem_problems
  | mimicry => exact Mimicry.mem_problems
  | forwarding => exact Forwarding.mem_problems
  | observability => exact Observability.mem_problems

theorem takeWhile_fieldUnder (layers : Nat) (rest : String)
    (hrest : rest.toList.takeWhile (· != '.') = []) :
    (fieldUnder "reaction" layers ++ rest).toList.takeWhile (· != '.') = "reaction".toList := by
  rw [fieldUnder, String.toList_append, String.toList_append, List.append_assoc,
    List.takeWhile_append_of_pos (by simp)]
  cases layers with
  | zero => simp [hrest]
  | succ layers => simp [List.replicate_succ]

/-- The field of a problem tells its section. -/
theorem Section.Breaks.place {s : Settings} {part : Section} {p : Problem} (h : part.Breaks s p) :
    p.place = part.name.toList := by
  cases part with
  | listener => cases h <;> simp [Problem.place, name]
  | tls => cases h <;> simp [Problem.place, name]
  | sessionTickets => cases h <;> simp [Problem.place, name]
  | reaction =>
    cases h with
    | deadEnd =>
      have hplace := takeWhile_fieldUnder (s.reaction.delays.length - 1) "" rfl
      rwa [String.append_empty] at hplace
    | destination => exact takeWhile_fieldUnder _ _ rfl
  | mimicry => cases h <;> simp [Problem.place, name]
  | forwarding => cases h <;> simp [Problem.place, name]
  | observability => cases h <;> simp [Problem.place, name]

theorem problems_eq_flatMap (s : Settings) :
    s.problems = Section.all.flatMap fun part => part.problems s := by
  simp only [problems, Section.all, Section.problems, List.flatMap_cons, List.flatMap_nil,
    List.append_nil, List.append_assoc]

/-- What is said about a section is what it was judged to lack. -/
theorem about_eq (s : Settings) (part : Section) : s.about part = part.problems s := by
  have hown (other : Section) : ((other.problems s).filter fun p => p.place == part.name.toList) =
      if other = part then other.problems s else [] := by
    split
    next hsame =>
      rw [List.filter_eq_self]
      intro p hp
      rw [beq_iff_eq, ← hsame]
      exact (Section.mem_problems.mp hp).place
    next hother =>
      rw [List.filter_eq_nil_iff]
      intro p hp hplace
      rw [beq_iff_eq, (Section.mem_problems.mp hp).place] at hplace
      exact hother (Section.name_inj hplace)
  rw [about, problems_eq_flatMap, List.filter_flatMap]
  simp only [hown]
  cases part <;> simp [Section.all]

theorem Section.problems_congr {s s' : Settings} {part : Section} (h : part.Agree s s') :
    part.problems s = part.problems s' := by
  cases part <;> simp only [Agree] at h <;> simp only [problems, h]

theorem nodup_reportIf {violated : Bool} {field message : String} :
    (reportIf violated field message).Nodup := by
  unfold reportIf
  split <;> simp

theorem nodup_append_reportIf {violated : Bool} {field message : String} {before : List Problem}
    (h : before.Nodup) (hnew : (⟨field, message⟩ : Problem) ∉ before) :
    (before ++ reportIf violated field message).Nodup := by
  refine List.nodup_append.mpr ⟨h, nodup_reportIf, ?_⟩
  intro p hp q hq hsame
  obtain ⟨-, rfl⟩ := mem_reportIf.mp hq
  exact hnew (hsame ▸ hp)

theorem Tls.nodup_problems (s : Tls) (disguised : Bool) : (s.problems disguised).Nodup := by
  unfold Tls.problems
  split
  next => simp
  next => exact nodup_reportIf
  next => simp

theorem SessionTickets.nodup_sourceProblems (s : SessionTickets) : s.sourceProblems.Nodup := by
  unfold sourceProblems
  split
  next => simp
  next => split <;> simp
  next => exact nodup_reportIf
  next => simp

theorem SessionTickets.field_of_sourceProblems {s : SessionTickets} {p : Problem}
    (h : p ∈ s.sourceProblems) :
    p.field ∈ ["session_tickets", "session_tickets.keys_base64", "session_tickets.key_file"] := by
  unfold sourceProblems at h
  split at h
  next => simp_all
  next => split at h <;> simp_all
  next => simp_all [mem_reportIf]
  next => simp at h

theorem SessionTickets.nodup_problems (s : SessionTickets) : s.problems.Nodup := by
  have hsource {field message : String} (hfield : field ∉
      ["session_tickets", "session_tickets.keys_base64", "session_tickets.key_file"]) :
      ⟨field, message⟩ ∉ s.sourceProblems := fun h => hfield (field_of_sourceProblems h)
  refine nodup_append_reportIf (nodup_append_reportIf (nodup_append_reportIf
    s.nodup_sourceProblems ?_) ?_) ?_
  · exact hsource (by simp)
  · simp [hsource, mem_mustBePositive]
  · simp [hsource, mem_mustBePositive, mem_reportIf]

theorem ReactionRule.nodup_problems (rule : ReactionRule) (field : String) :
    (rule.problems field).Nodup := by
  rw [ReactionRule.problems_eq]
  split
  next => exact nodup_reportIf
  next => exact nodup_reportIf
  next => simp

theorem Mimicry.nodup_problems (s : Mimicry) : s.problems.Nodup := by
  unfold Mimicry.problems
  split
  next => simp
  next => exact nodup_append_reportIf nodup_reportIf (by simp [mem_mustBePositive])

theorem Section.nodup_problems (s : Settings) (part : Section) : (part.problems s).Nodup := by
  cases part with
  | listener =>
    exact nodup_append_reportIf (nodup_append_reportIf nodup_reportIf (by simp [mem_reportIf]))
      (by simp [mem_reportIf, mem_mustBePositive])
  | tls => exact s.tls.nodup_problems _
  | sessionTickets => exact s.sessionTickets.nodup_problems
  | reaction => exact s.reaction.nodup_problems _
  | mimicry => exact s.mimicry.nodup_problems
  | forwarding => exact nodup_append_reportIf nodup_reportIf (by simp [mem_reportIf])
  | observability => exact nodup_append_reportIf nodup_reportIf (by simp [mem_reportIf])

theorem nodup_problems (s : Settings) : s.problems.Nodup := by
  have horder : Section.all.Nodup := by decide
  rw [problems_eq_flatMap, List.Nodup, List.pairwise_flatMap]
  refine ⟨fun part _ => part.nodup_problems s, horder.imp ?_⟩
  intro part other hne p hp q hq hsame
  have hplace := (Section.mem_problems.mp hp).place
  rw [hsame, (Section.mem_problems.mp hq).place] at hplace
  exact hne (Section.name_inj hplace.symm)

/-- Settings are told all that is wrong with them and nothing else: section by section, each broken rule
once, and of one section the same whatever the others say. -/
theorem every_broken_rule_reported (s : Settings) :
    s.problems = Section.all.flatMap s.about ∧
      (∀ part s', part.Agree s s' → s.about part = s'.about part) ∧
      (∀ part p, p ∈ s.about part ↔ part.Breaks s p) ∧ s.problems.Nodup ∧
      (s.validate = .ok () ↔ ∀ part, s.about part = []) ∧
      (s.validate ≠ .ok () → s.validate = .error s.problems) := by
  have hwhole : s.problems = Section.all.flatMap s.about := by
    rw [funext s.about_eq]
    exact s.problems_eq_flatMap
  refine ⟨hwhole, ?_, ?_, s.nodup_problems, ?_, ?_⟩
  · intro part s' hagree
    rw [about_eq, about_eq]
    exact Section.problems_congr hagree
  · intro part p
    rw [about_eq]
    exact Section.mem_problems
  · rw [validate_eq_ok_iff, hwhole, List.flatMap_eq_nil_iff]
    exact ⟨fun h part => h part part.mem_all, fun h part _ => h part⟩
  · intro hbad
    rw [Ne, validate_eq_ok_iff, ← List.isEmpty_iff] at hbad
    exact if_neg hbad

end Gatehouse.Settings
