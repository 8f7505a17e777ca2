import Gatehouse.Capture.Pool
import Gatehouse.Lifecycle.Startup
import Gatehouse.Settings.Validation
import Mathlib.Algebra.Group.Nat.Defs

namespace Gatehouse.Settings

theorem reportIf_eq_nil_iff {violated : Bool} {field message : String} :
    reportIf violated field message = [] ↔ violated = false := by
  unfold reportIf
  split <;> simp_all

theorem validate_eq_ok_iff {s : Settings} : s.validate = .ok () ↔ s.problems = [] := by
  unfold validate
  split <;> simp_all

/-- Settings pass if every section of them does. -/
theorem sections_eq_nil {s : Settings} (hvalid : s.validate = .ok ()) :
    s.listener.problems = [] ∧ s.tls.problems s.mimicry.protocol.isSome = [] ∧
      s.sessionTickets.problems = [] ∧ s.reaction.problems "reaction" = [] ∧
      s.mimicry.problems = [] ∧ s.forwarding.problems = [] ∧ s.observability.problems = [] := by
  simpa only [problems, List.append_eq_nil_iff, and_assoc] using validate_eq_ok_iff.mp hvalid

/-- Settings that pass name an address to listen on. -/
theorem parse?_bindAddress {s : Settings} (hvalid : s.validate = .ok ()) :
    ∃ address, SocketAddress.parse? s.listener.bindAddress = some address := by
  obtain ⟨hlistener, -⟩ := sections_eq_nil hvalid
  rw [Listener.problems, List.append_eq_nil_iff, List.append_eq_nil_iff, reportIf_eq_nil_iff,
    Bool.not_eq_false'] at hlistener
  exact Option.isSome_iff_exists.mp hlistener.1.1

theorem bind_eq {s : Settings} (hvalid : s.validate = .ok ())
    (opens : SocketAddress → Except Refusal SocketAddress) (max : Nat) :
    ∃ address, SocketAddress.parse? s.listener.bindAddress = some address ∧
      Gatehouse.Listener.bind opens s.listener.bindAddress max =
        match opens address with
        | .error refusal => .error (.refused refusal)
        | .ok own =>
          if maxSlots < max then .error (.tooManySlots max) else .ok ⟨own, .start max, [], 0⟩ := by
  obtain ⟨address, hparse⟩ := parse?_bindAddress hvalid
  refine ⟨address, hparse, ?_⟩
  cases hopens : opens address with
  | error refusal => simp only [Gatehouse.Listener.bind, hparse, hopens]
  | ok own => simp only [Gatehouse.Listener.bind, hparse, hopens]

theorem except_bind_eq_error_iff {ε α β : Type} {x : Except ε α} {f : α → Except ε β} {fault : ε} :
    x >>= f = .error fault ↔ x = .error fault ∨ ∃ a, x = .ok a ∧ f a = .error fault := by
  cases x with
  | error other => simp [bind, Except.bind]
  | ok a => simp [bind, Except.bind]

theorem except_mapError_eq_error_iff {ε ε' α : Type} {x : Except ε α} {f : ε → ε'} {fault : ε'} :
    x.mapError f = .error fault ↔ ∃ cause, x = .error cause ∧ f cause = fault := by
  cases x with
  | error other =>
    change Except.error (f other) = .error fault ↔ _
    simp
  | ok a =>
    change Except.ok a = .error fault ↔ _
    simp

section Start
variable {s : Settings} {fresh : Ticket.Key} {decoy : Except Refusal Tls.Identity}
  {machine : Machine} {opens : SocketAddress → Except Refusal SocketAddress} {disk : Storage.Disk}
  {fault : StartupError}

/-- What the listener's settings can lack: an identity that can be made up or loaded, or the names of
its files. -/
theorem error_of_frontage (h : Startup.frontage s decoy disk = .error fault) :
    (s.mimicry.protocol ≠ none ∧ ∃ refusal, decoy = .error refusal ∧ fault = .decoy refusal) ∨
    s.mimicry.protocol = none ∧ ((∃ cause, fault = .identity cause) ∨
      (s.tls.certPath = none ∨ s.tls.keyPath = none) ∧ ∃ text, fault = .settings text) := by
  have hidentity : Startup.identity s decoy disk = .error fault := by
    unfold Startup.frontage at h
    cases hloaded : Startup.identity s decoy disk with
    | error other =>
      rw [hloaded] at h
      exact congrArg Except.error (Except.error.inj h)
    | ok identity =>
      rw [hloaded] at h
      contradiction
  unfold Startup.identity at hidentity
  split at hidentity
  next hprotocol =>
    obtain ⟨refusal, hrefusal, rfl⟩ := except_mapError_eq_error_iff.mp hidentity
    exact .inl ⟨by simp [hprotocol], refusal, hrefusal, rfl⟩
  next hprotocol _ _ =>
    obtain ⟨cause, -, rfl⟩ := except_mapError_eq_error_iff.mp hidentity
    exact .inr ⟨hprotocol, .inl ⟨cause, rfl⟩⟩
  next hprotocol hboth =>
    refine .inr ⟨hprotocol, .inr ⟨?_, _, (Except.error.inj hidentity).symm⟩⟩
    cases hcert : s.tls.certPath with
    | none => exact .inl rfl
    | some cert =>
      cases hkey : s.tls.keyPath with
      | none => exact .inr rfl
      | some key => exact absurd hkey (hboth cert key hcert)

/-- What can keep a frontage from being listened at: its identity, or the listener itself. -/
theorem error_of_listen {frontage : Frontage}
    (h : Startup.listen s frontage opens = .error fault) :
    (s.mimicry.protocol = none ∧ ∃ cause, fault = .certificate cause) ∨
      ∃ cause, Gatehouse.Listener.bind opens frontage.bindAddress frontage.maxConnections =
        .error cause ∧ fault = .listener cause := by
  have hbound : (Gatehouse.Listener.bind opens frontage.bindAddress
      frontage.maxConnections).mapError StartupError.listener = .error fault → ∃ cause,
        Gatehouse.Listener.bind opens frontage.bindAddress frontage.maxConnections =
          .error cause ∧ fault = .listener cause := by
    intro hbind
    obtain ⟨cause, hcause, rfl⟩ := except_mapError_eq_error_iff.mp hbind
    exact ⟨cause, hcause, rfl⟩
  unfold Startup.listen at h
  split at h
  next hplain =>
    rcases except_bind_eq_error_iff.mp h with hcheck | ⟨_, -, hbind⟩
    · obtain ⟨cause, -, rfl⟩ := except_mapError_eq_error_iff.mp hcheck
      exact .inl ⟨Option.isNone_iff_eq_none.mp hplain, cause, rfl⟩
    · exact .inr (hbound hbind)
  next => exact .inr (hbound h)

theorem of_frontage {frontage : Frontage} (h : Startup.frontage s decoy disk = .ok frontage) :
    frontage.bindAddress = s.listener.bindAddress ∧
      frontage.maxConnections = s.listener.maxConnections.toNat := by
  unfold Startup.frontage at h
  cases hidentity : Startup.identity s decoy disk with
  | error other => simp [hidentity, Except.map] at h
  | ok identity =>
    rw [hidentity] at h
    obtain rfl := Except.ok.inj h
    exact ⟨rfl, rfl⟩

theorem error_of_exportMetrics {observability : Observability}
    {exporter : SocketAddress → Except Refusal Unit}
    (h : Startup.exportMetrics observability exporter = .error fault) :
    Startup.metricsAddress? observability = .error fault ∨
      ∃ address refusal, Startup.metricsAddress? observability = .ok (some address) ∧
        exporter address = .error refusal ∧ fault = .metrics refusal := by
  rcases except_bind_eq_error_iff.mp h with haddress | ⟨address?, haddress, hexport⟩
  · exact .inl haddress
  · cases address? with
    | none => contradiction
    | some address =>
      obtain ⟨refusal, hrefusal, rfl⟩ := except_mapError_eq_error_iff.mp hexport
      exact .inr ⟨address, refusal, haddress, hrefusal, rfl⟩

/-- A start fails in one of its stages: the metrics, the keys, the listener's settings, the
listener. -/
theorem error_of_start (h : (Startup.start s fresh machine disk).1 = .error fault) :
    Startup.exportMetrics s.observability machine.exporter = .error fault ∨
    (∃ cause, (Startup.buildRing s.sessionTickets fresh disk).1 = .error cause ∧
      fault = .keyRing cause) ∨
    (∃ disk', Startup.frontage s machine.decoy disk' = .error fault) ∨
    ∃ frontage disk', Startup.frontage s machine.decoy disk' = .ok frontage ∧
      Startup.listen s frontage machine.opens = .error fault := by
  unfold Startup.start at h
  cases hmetrics : Startup.exportMetrics s.observability machine.exporter with
  | error other =>
    simp only [hmetrics] at h
    exact .inl (congrArg Except.error (Except.error.inj h))
  | ok _ =>
    simp only [hmetrics] at h
    refine .inr ?_
    cases hring : (Startup.buildRing s.sessionTickets fresh disk).1 with
    | error cause =>
      simp only [hring] at h
      exact .inl ⟨cause, rfl, (Except.error.inj h).symm⟩
    | ok ring =>
      simp only [hring] at h
      refine .inr ?_
      rcases except_bind_eq_error_iff.mp h with hfrontage | ⟨frontage, hfrontage, hlater⟩
      · exact .inl ⟨_, hfrontage⟩
      · rcases except_bind_eq_error_iff.mp hlater with hlisten | ⟨listener, -, hno⟩
        · exact .inr ⟨frontage, _, hfrontage, hlisten⟩
        · contradiction

/-- What a start finds wrong with the listener is found with what settings say of it. -/
theorem bind_of_start {e : Gatehouse.Listener.BindError}
    (hstart : (Startup.start s fresh machine disk).1 = .error (.listener e)) :
    Gatehouse.Listener.bind machine.opens s.listener.bindAddress s.listener.maxConnections.toNat =
      .error e := by
  rcases error_of_start hstart with hmetrics | ⟨_, -, hring⟩ | ⟨_, hfrontage⟩ |
    ⟨frontage, _, hfrontage, hlisten⟩
  · rcases error_of_exportMetrics hmetrics with haddress | ⟨_, _, -, -, hother⟩
    · unfold Startup.metricsAddress? at haddress
      repeat' split at haddress
      all_goals simp at haddress
    · cases hother
  · cases hring
  · obtain ⟨-, _, -, hother⟩ | ⟨-, ⟨_, hother⟩ | ⟨-, _, hother⟩⟩ :=
      error_of_frontage hfrontage <;> cases hother
  · obtain ⟨haddress, hmax⟩ := of_frontage hfrontage
    rcases error_of_listen hlisten with ⟨-, _, hother⟩ | ⟨cause, hbind, hsame⟩
    · cases hother
    · rw [← haddress, ← hmax, hbind, StartupError.listener.inj hsame]

end Start

/-- The most capture buffers that are kept for connections to come. -/
def keptBuffers (s : Settings) : Nat := min s.listener.maxConnections.toNat 256

/-- A gate with these settings can be built at any instant up to one, and can rotate its keys and give
every connection its time for the handshake. -/
structure Runs (s : Settings) (latest : Nat) : Prop where
  binds : ∃ address, SocketAddress.parse? s.listener.bindAddress = some address ∧
    ∀ opens own, opens address = .ok own → ∃ listener,
      Gatehouse.Listener.bind opens s.listener.bindAddress s.listener.maxConnections.toNat =
        .ok listener
  /-- Nothing comes in the way of the listener but a machine that refuses its address. -/
  starts : ∀ fresh machine disk e, (Startup.start s fresh machine disk).1 = .error (.listener e) →
    ∃ address refusal, SocketAddress.parse? s.listener.bindAddress = some address ∧
      machine.opens address = .error refusal ∧ e = .refused refusal
  pools : ∃ pool, Capture.Pool.start? s.keptBuffers = some pool
  rotates : ∀ now ≤ latest, ∃ first, Startup.firstRotation? s.sessionTickets now = some first
  serves : ∀ now ≤ latest, ∃ deadline, Startup.handshakeDeadline? s.listener now = some deadline

/-- What the machine can give. -/
structure WithinLimits (s : Settings) (latest : Nat) : Prop where
  slots : s.listener.maxConnections.toNat < 2 ^ 61
  rotation : latest + s.sessionTickets.rotationIntervalSecs.toNat < 2 ^ 63
  handshake : latest + s.listener.handshakeTimeoutSecs.toNat < 2 ^ 63

theorem forall_later?_iff {latest seconds : Nat} :
    (∀ now ≤ latest, ∃ instant, Clock.later? now seconds = some instant) ↔ latest + seconds < 2 ^ 63 := by
  have hlast : Clock.last = 2 ^ 63 - 1 := rfl
  constructor
  · intro h
    have hlater := Option.ne_none_iff_exists'.mpr (h latest (Nat.le_refl _))
    rw [Ne, Clock.later?_eq_none_iff, hlast] at hlater
    omega
  · intro hwithin now hnow
    apply Option.ne_none_iff_exists'.mp
    rw [Ne, Clock.later?_eq_none_iff, hlast]
    omega

/-- Settings that pass let a gate run if and only if they keep to what the machine can give. -/
theorem runs_iff_within_limits {s : Settings} (hvalid : s.validate = .ok ()) (latest : Nat) :
    s.Runs latest ↔ s.WithinLimits latest := by
  have hslots : ¬ maxSlots < s.listener.maxConnections.toNat ↔
      s.listener.maxConnections.toNat < 2 ^ 61 := by
    have hmost : maxSlots = 2 ^ 61 - 1 := rfl
    omega
  constructor
  · intro h
    refine ⟨hslots.mp fun hmany => ?_, forall_later?_iff.mp h.rotates, forall_later?_iff.mp h.serves⟩
    obtain ⟨address, hparse, hopens⟩ := h.binds
    obtain ⟨listener, hlistener⟩ := hopens .ok address rfl
    obtain ⟨_, -, hbind⟩ := bind_eq hvalid .ok s.listener.maxConnections.toNat
    rw [hbind] at hlistener
    simp only [if_pos hmany] at hlistener
    cases hlistener
  · intro h
    obtain ⟨address, hparse⟩ := parse?_bindAddress hvalid
    refine ⟨⟨address, hparse, ?_⟩, ?_, ?_, forall_later?_iff.mpr h.rotation,
      forall_later?_iff.mpr h.handshake⟩
    · intro opens own hopens
      simp only [Gatehouse.Listener.bind, hparse, hopens, if_neg (hslots.mpr h.slots)]
      exact ⟨_, rfl⟩
    · intro fresh machine disk e hstart
      have hbind := bind_of_start hstart
      simp only [Gatehouse.Listener.bind, hparse, if_neg (hslots.mpr h.slots)] at hbind
      cases hopens : machine.opens address with
      | error refusal =>
        rw [hopens] at hbind
        exact ⟨address, refusal, hparse, hopens, (Except.error.inj hbind).symm⟩
      | ok own =>
        rw [hopens] at hbind
        cases hbind
    · have hfew : s.keptBuffers ≤ Capture.Pool.maxPlaces :=
        Nat.le_trans (Nat.min_le_right _ _) (by decide)
      exact ⟨_, if_pos hfew⟩

/-- All standard, but for a protocol before TLS. -/
def disguised : Settings := { mimicry := { protocol := some .rdp } }

theorem disguised_runs : disguised.validate = .ok () ∧ disguised.Runs (2 ^ 62) := by
  have hvalid : disguised.validate = .ok () := rfl
  exact ⟨hvalid, (runs_iff_within_limits hvalid (2 ^ 62)).mpr ⟨by decide, by decide, by decide⟩⟩

/-- More slots than there can be, and times that the clock cannot tell. -/
def boundless : Settings := {
  listener := {
    bindAddress := "127.0.0.1:0"
    maxConnections := 2305843009213693952
    handshakeTimeoutSecs := 9223372036854775807 }
  sessionTickets := { rotationIntervalSecs := 9223372036854775807 }
  mimicry := { protocol := some .rdp } }

theorem boundless_passes :
    boundless.validate = .ok () ∧
      Gatehouse.Listener.bind .ok boundless.listener.bindAddress
          boundless.listener.maxConnections.toNat =
        .error (.tooManySlots 2305843009213693952) ∧
      Startup.firstRotation? boundless.sessionTickets 1 = none ∧
      Startup.handshakeDeadline? boundless.listener 1 = none := ⟨rfl, rfl, rfl, rfl⟩

end Gatehouse.Settings
