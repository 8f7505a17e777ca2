import Gatehouse.Proofs.Settings.Limits
import Gatehouse.Proofs.Ticket.Material
import Gatehouse.Proofs.Ticket.Rotation

namespace Gatehouse.Settings

variable {s : Settings} {fresh : Ticket.Key} {machine : Machine} {disk : Storage.Disk}
  {fault : StartupError}

theorem exists_certificate (h : s.tls.problems s.mimicry.protocol.isSome = [])
    (hplain : s.mimicry.protocol = none) : s.tls.certPath ≠ none ∧ s.tls.keyPath ≠ none := by
  unfold Tls.problems at h
  split at h
  next hcert hkey => simp [hcert, hkey]
  next => simp [hplain, reportIf] at h
  next => contradiction

theorem exists_keys_of_text {tickets : SessionTickets} {text : String}
    (h : tickets.problems = []) (htext : tickets.keysBase64 = some text) :
    ∃ keys, Ticket.KeyList.ofBase64 text = .ok keys := by
  simp only [SessionTickets.problems, List.append_eq_nil_iff] at h
  obtain ⟨⟨⟨hsource, -⟩, -⟩, -⟩ := h
  rw [SessionTickets.sourceProblems, htext] at hsource
  cases hfile : tickets.keyFile with
  | some path =>
    rw [hfile] at hsource
    contradiction
  | none =>
    rw [hfile] at hsource
    cases hkeys : Ticket.KeyList.ofBase64 text with
    | ok keys => exact ⟨keys, rfl⟩
    | error e => simp [hkeys] at hsource

theorem maxKeys_pos {tickets : SessionTickets} {n : UInt64} (h : tickets.problems = [])
    (hmax : tickets.maxKeys = some n) : 1 ≤ n.toNat := by
  simp only [SessionTickets.problems, List.append_eq_nil_iff, reportIf_eq_nil_iff, hmax] at h
  have hne : n ≠ 0 := by simpa using h.1.2
  have hnat : n.toNat ≠ 0 := fun hzero => hne (UInt64.toNat_inj.mp hzero)
  omega

/-- Settings that pass name an address for the metrics if these are wanted. -/
theorem metricsAddress?_eq {observability : Observability} (h : observability.problems = []) :
    Startup.metricsAddress? observability = .ok (if observability.metricsEnabled then
      SocketAddress.parse? observability.metricsAddress else none) := by
  simp only [Observability.problems, List.append_eq_nil_iff, reportIf_eq_nil_iff, isSocketAddress,
    Option.not_isSome, Bool.and_eq_false_imp] at h
  unfold Startup.metricsAddress?
  by_cases hwanted : observability.metricsEnabled = true
  · have hsome := h.2 hwanted
    rw [if_pos hwanted, if_pos hwanted]
    cases hparse : SocketAddress.parse? observability.metricsAddress with
    | none => simp [hparse] at hsome
    | some address => rfl
  · rw [if_neg hwanted, if_neg hwanted]

theorem buildRing_of_text {tickets : SessionTickets} {text : String} {keys : Ticket.KeyList}
    (htext : tickets.keysBase64 = some text) (hkeys : Ticket.KeyList.ofBase64 text = .ok keys)
    (fresh : Ticket.Key) (disk : Storage.Disk) :
    Startup.buildRing tickets fresh disk = (.ok ⟨.inMemory, keys⟩, disk) := by
  simp [Startup.buildRing, Startup.source?, htext, Ticket.Ring.load, hkeys, Except.mapError,
    Except.map]

theorem buildRing_of_none {tickets : SessionTickets} (htext : tickets.keysBase64 = none)
    (hfile : tickets.keyFile = none) (fresh : Ticket.Key) (disk : Storage.Disk) :
    Startup.buildRing tickets fresh disk = (.ok (.generated fresh), disk) := by
  simp [Startup.buildRing, Startup.source?, htext, hfile]

/-- A ring with a file keeps as many keys as the settings say. -/
theorem limit_of_buildRing {tickets : SessionTickets} {ring : Ticket.Ring} {path : String}
    {limit : Option Nat} (h : (Startup.buildRing tickets fresh disk).1 = .ok ring)
    (hmode : ring.mode = .file path limit) : limit = tickets.maxKeys.map UInt64.toNat := by
  unfold Startup.buildRing Startup.source? at h
  split at h
  next source hsource =>
    split at hsource
    next =>
      obtain rfl := Option.some.inj hsource
      obtain ⟨keys, -, rfl⟩ := except_map_eq_ok_iff.mp h
      contradiction
    next =>
      obtain rfl := Option.some.inj hsource
      obtain ⟨keys, -, rfl⟩ := except_map_eq_ok_iff.mp h
      exact (Ticket.Mode.file.inj hmode).2.symm
    next => contradiction
  next =>
    obtain rfl := Except.ok.inj h
    contradiction

theorem keyFile_of_error {tickets : SessionTickets} {cause : Ticket.LoadError}
    (hvalid : tickets.problems = [])
    (h : (Startup.buildRing tickets fresh disk).1 = .error cause) : tickets.keyFile ≠ none := by
  intro hfile
  cases htext : tickets.keysBase64 with
  | none =>
    rw [buildRing_of_none htext hfile] at h
    contradiction
  | some text =>
    obtain ⟨keys, hkeys⟩ := exists_keys_of_text hvalid htext
    rw [buildRing_of_text htext hkeys] at h
    contradiction

/-- Under a limit of one at least, a rotation needs no exception for the last key. -/
theorem toList_rotateWith_of_pos {keeper : Ticket.Keeper} {path : String} {m : Nat}
    (hmode : keeper.ring.mode = .file path (some m)) (hpos : 1 ≤ m) (call : Ticket.Call)
    (hdone : (keeper.rotateWith call.fails call.fresh).1 = true) :
    (keeper.rotateWith call.fails call.fresh).2.ring.keys.toList =
      (call.fresh :: keeper.ring.keys.toList).take m := by
  rcases keeper.rotateWith_cases call.fails call.fresh with ⟨-, hskip⟩ | ⟨-, -, -, hkeys⟩
  · rw [hskip] at hdone
    contradiction
  · rw [hkeys, hmode, Ticket.Mode.turned, Ticket.kept, Nat.max_eq_left hpos]

/-- What settings that pass can still meet with: a file that is of no use, a machine that does not do
what it is asked for, or more slots than there can be. -/
inductive Outside (s : Settings) (machine : Machine) : StartupError → Prop
  | exporter (address : SocketAddress) (refusal : Refusal)
    (hwanted : s.observability.metricsEnabled = true)
    (haddress : SocketAddress.parse? s.observability.metricsAddress = some address)
    (h : machine.exporter address = .error refusal) : Outside s machine (.metrics refusal)
  | keyFile (path : String) (cause : Ticket.LoadError) (h : s.sessionTickets.keyFile = some path) :
    Outside s machine (.keyRing cause)
  | decoy (refusal : Refusal) (hprotocol : s.mimicry.protocol ≠ none)
    (h : machine.decoy = .error refusal) : Outside s machine (.decoy refusal)
  | identity (cause : Tls.IdentityError) (h : s.mimicry.protocol = none) :
    Outside s machine (.identity cause)
  | certificate (cause : Tls.Unfit) (h : s.mimicry.protocol = none) :
    Outside s machine (.certificate cause)
  | listener (address : SocketAddress) (refusal : Refusal)
    (haddress : SocketAddress.parse? s.listener.bindAddress = some address)
    (h : machine.opens address = .error refusal) : Outside s machine (.listener (.refused refusal))
  | slots (h : maxSlots < s.listener.maxConnections.toNat) :
    Outside s machine (.listener (.tooManySlots s.listener.maxConnections.toNat))

theorem outside_of_frontage (hvalid : s.validate = .ok ())
    (h : Startup.frontage s machine.decoy disk = .error fault) : s.Outside machine fault := by
  rcases error_of_frontage h with
    ⟨hprotocol, refusal, hrefusal, rfl⟩ | ⟨hplain, ⟨cause, rfl⟩ | ⟨hmissing, -⟩⟩
  · exact .decoy refusal hprotocol hrefusal
  · exact .identity cause hplain
  · obtain ⟨hcert, hkey⟩ := exists_certificate (sections_eq_nil hvalid).2.1 hplain
    exact absurd hmissing (not_or.mpr ⟨hcert, hkey⟩)

theorem outside_of_exportMetrics (hvalid : s.validate = .ok ())
    (h : Startup.exportMetrics s.observability machine.exporter = .error fault) :
    s.Outside machine fault := by
  obtain ⟨-, -, -, -, -, -, hobservability⟩ := sections_eq_nil hvalid
  have heq := metricsAddress?_eq hobservability
  rcases error_of_exportMetrics h with hnone | ⟨address, refusal, haddress, hrefusal, rfl⟩
  · rw [heq] at hnone
    cases hnone
  · rw [heq, Except.ok.injEq, Option.ite_none_right_eq_some] at haddress
    exact .exporter address refusal haddress.1 haddress.2 hrefusal

/-- An address that settings which pass are to listen on is opened, or refused by the machine. -/
theorem outside_of_bind (hvalid : s.validate = .ok ()) {cause : Gatehouse.Listener.BindError}
    (h : Gatehouse.Listener.bind machine.opens s.listener.bindAddress
      s.listener.maxConnections.toNat = .error cause) : s.Outside machine (.listener cause) := by
  obtain ⟨address, hparse, hbind⟩ := bind_eq hvalid machine.opens s.listener.maxConnections.toNat
  rw [hbind] at h
  cases hopens : machine.opens address with
  | error refusal =>
    rw [hopens] at h
    obtain rfl := Except.error.inj h
    exact .listener address refusal hparse hopens
  | ok own =>
    simp only [hopens] at h
    split at h
    next hmany =>
      obtain rfl := Except.error.inj h
      exact .slots hmany
    next => cases h

theorem bind_ne_address (hvalid : s.validate = .ok ())
    (opens : SocketAddress → Except Refusal SocketAddress) (max : Nat) (text : String) :
    Gatehouse.Listener.bind opens s.listener.bindAddress max ≠ .error (.address text) := by
  obtain ⟨address, -, hbind⟩ := bind_eq hvalid opens max
  rw [hbind]
  split
  · simp
  · split <;> simp

theorem outside_of_start (hvalid : s.validate = .ok ())
    (h : (Startup.start s fresh machine disk).1 = .error fault) : s.Outside machine fault := by
  obtain ⟨-, -, htickets, -⟩ := sections_eq_nil hvalid
  rcases error_of_start h with hmetrics | ⟨cause, hring, rfl⟩ | ⟨_, hfrontage⟩ |
    ⟨frontage, _, hfrontage, hlisten⟩
  · exact outside_of_exportMetrics hvalid hmetrics
  · obtain ⟨path, hpath⟩ := Option.ne_none_iff_exists'.mp (keyFile_of_error htickets hring)
    exact .keyFile path cause hpath
  · exact outside_of_frontage hvalid hfrontage
  · rcases error_of_listen hlisten with ⟨hplain, cause, rfl⟩ | ⟨cause, hbind, rfl⟩
    · exact .certificate cause hplain
    · obtain ⟨haddress, hmax⟩ := of_frontage hfrontage
      rw [haddress, hmax] at hbind
      exact outside_of_bind hvalid hbind

/-- What a start asks of settings is there. -/
structure Ready (s : Settings) : Prop where
  /-- A text of keys gives the ring, and it is the text of the ring's keys. -/
  keys : ∀ text, s.sessionTickets.keysBase64 = some text → ∃ keys : Ticket.KeyList,
    Base64.Spells (Bytes.ofString (String.ofList (Text.trim text.toList))) keys.toBytes ∧
      ∀ fresh disk, Startup.buildRing s.sessionTickets fresh disk = (.ok ⟨.inMemory, keys⟩, disk)
  noKeys : s.sessionTickets.keysBase64 = none → s.sessionTickets.keyFile = none →
    ∀ fresh disk, Startup.buildRing s.sessionTickets fresh disk = (.ok (.generated fresh), disk)
  frontage : ∀ decoy disk text, Startup.frontage s decoy disk ≠ .error (.settings text)
  metrics : ∃ address?, Startup.metricsAddress? s.observability = .ok address?
  bind : ∀ opens max text,
    Gatehouse.Listener.bind opens s.listener.bindAddress max ≠ .error (.address text)
  start : ∀ fresh machine disk fault,
    (Startup.start s fresh machine disk).1 = .error fault → s.Outside machine fault
  /-- Of a ring with a limit, a rotation keeps as many keys as the limit says, which is one at
  least. -/
  limit : ∀ fresh disk ring path m, (Startup.buildRing s.sessionTickets fresh disk).1 = .ok ring →
    ring.mode = .file path (some m) → 1 ≤ m ∧
      ∀ (keeper : Ticket.Keeper) (calls : List Ticket.Call) (call : Ticket.Call),
        keeper.ring = ring →
        ((keeper.after calls).rotateWith call.fails call.fresh).1 = true →
        ((keeper.after calls).rotateWith call.fails call.fresh).2.ring.keys.toList =
          (call.fresh :: (keeper.after calls).ring.keys.toList).take m

/-- Settings that pass are ready for a start. -/
theorem ready_of_validate (hvalid : s.validate = .ok ()) : s.Ready := by
  obtain ⟨-, -, htickets, -, -, -, hobservability⟩ := sections_eq_nil hvalid
  refine ⟨?_, buildRing_of_none, ?_, ⟨_, metricsAddress?_eq hobservability⟩, bind_ne_address hvalid,
    ?_, ?_⟩
  · intro text htext
    obtain ⟨keys, hkeys⟩ := exists_keys_of_text htickets htext
    refine ⟨keys, ?_, buildRing_of_text htext hkeys⟩
    rw [Ticket.KeyList.ofBase64_eq_ok_iff.mp hkeys, String.ofList_toList, Ticket.KeyList.toBase64,
      Base64.ofString_encodeText, Base64.spells_iff]
  · intro decoy disk text h
    have hout : s.Outside ⟨fun _ => .ok (), decoy, .ok⟩ (.settings text) :=
      outside_of_frontage hvalid h
    cases hout
  · intro fresh machine disk fault h
    exact outside_of_start hvalid h
  · intro fresh disk ring path m hring hmode
    obtain ⟨n, hmax, rfl⟩ := Option.map_eq_some_iff.mp (limit_of_buildRing hring hmode).symm
    have hpos := maxKeys_pos htickets hmax
    refine ⟨hpos, ?_⟩
    rintro keeper calls call rfl hdone
    exact toList_rotateWith_of_pos ((keeper.mode_after calls).trans hmode) hpos call hdone

/-- One key, kept in memory. -/
def oneKey : Ticket.KeyList := ⟨⟨List.replicate 32 7, rfl⟩, []⟩

/-- A text of keys with white space around it, the metrics wanted, and a protocol before TLS. -/
def keyed : Settings := {
  sessionTickets := { keysBase64 := some (.singleton ' ' ++ oneKey.toBase64 ++ .singleton '\n') }
  mimicry := { protocol := some .rdp }
  observability := { metricsEnabled := true } }

theorem keyed_ready : keyed.validate = .ok () ∧ keyed.Ready := by
  have htext : Ticket.KeyList.ofBase64
      (.singleton ' ' ++ oneKey.toBase64 ++ .singleton '\n') = .ok oneKey :=
    oneKey.ofBase64_around (Text.blank_singleton rfl) (Text.blank_singleton rfl)
  have hsource : keyed.sessionTickets.sourceProblems = [] := by
    simp only [SessionTickets.sourceProblems, keyed, htext]
  have hvalid : keyed.validate = .ok () := by
    rw [validate_eq_ok_iff, problems, SessionTickets.problems, hsource]
    rfl
  exact ⟨hvalid, ready_of_validate hvalid⟩

end Gatehouse.Settings
