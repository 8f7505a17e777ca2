import Gatehouse.Proofs.Settings.Sections
import Gatehouse.Settings.Reading
import Gatehouse.Settings.Writing
import Mathlib.Logic.Relation

namespace Gatehouse

namespace Json

theorem field?_append (front back : List (String × Json)) (name : String) :
    (obj (front ++ back)).field? name = ((obj back).field? name).or ((obj front).field? name) := by
  simp only [field?, List.reverse_append, List.find?_append, Option.map_or]

theorem field?_cons (f : String × Json) (fields : List (String × Json)) (name : String) :
    (obj (f :: fields)).field? name =
      ((obj fields).field? name).or (if f.1 = name then some f.2 else none) := by
  rw [← List.singleton_append, field?_append]
  by_cases h : f.1 = name <;> simp [field?, h]

theorem field?_nil (name : String) : (obj []).field? name = none := rfl

theorem field?_eq_none_of_forall {fields : List (String × Json)} {name : String}
    (h : ∀ f ∈ fields, f.1 ≠ name) : (obj fields).field? name = none := by
  simpa [field?] using h

/-- A field of another name is not seen. -/
theorem field?_insert {name other : String} (h : other ≠ name) (before after : List (String × Json))
    (value : Json) :
    (obj (before ++ (other, value) :: after)).field? name = (obj (before ++ after)).field? name := by
  rw [field?_append, field?_append, field?_cons, if_neg h, Option.or_none]

/-- Neither is the order of two fields, one of which has another name. -/
theorem field?_swap {name : String} {x y : String × Json} (h : x.1 ≠ name ∨ y.1 ≠ name)
    (before after : List (String × Json)) :
    (obj (before ++ x :: y :: after)).field? name =
      (obj (before ++ y :: x :: after)).field? name := by
  rw [field?_append, field?_append, field?_cons, field?_cons, field?_cons, field?_cons]
  rcases h with h | h <;> simp [h]

/-- A field whose value is exchanged is either the one that counts, or not seen at all. -/
theorem field?_exchange (before after : List (String × Json)) (name : String) (value value' : Json) :
    ((obj (before ++ (name, value) :: after)).field? name = some value ∧
      (obj (before ++ (name, value') :: after)).field? name = some value') ∨
    (obj (before ++ (name, value) :: after)).field? name =
      (obj (before ++ (name, value') :: after)).field? name := by
  simp only [field?_append, field?_cons, if_pos]
  cases (obj after).field? name with
  | none => exact .inl ⟨rfl, rfl⟩
  | some _ => exact .inr rfl

theorem field?_eq_some_iff {fields : List (String × Json)} (h : (fields.map Prod.fst).Nodup)
    {name : String} {value : Json} :
    (obj fields).field? name = some value ↔ (name, value) ∈ fields := by
  induction fields with
  | nil => simp [field?_nil]
  | cons f rest ih =>
    rw [List.map_cons, List.nodup_cons] at h
    rw [field?_cons, List.mem_cons, ← ih h.2, Prod.ext_iff]
    by_cases hname : f.1 = name
    · have hnone : (obj rest).field? name = none :=
        field?_eq_none_of_forall fun g hg hsame => h.1 (hname ▸ hsame ▸ List.mem_map_of_mem hg)
      simp [hname, hnone, eq_comm]
    · simp [hname, Ne.symm hname]

theorem ofOption_eq_null_iff {α : Type} {f : α → Json} (h : ∀ a, f a ≠ .null) {o : Option α} :
    ofOption f o = .null ↔ o = none := by
  cases o <;> simp [ofOption, h]

end Json

namespace Settings
namespace Document

/-- A document keeps the fields of an object, the last of a name being the one that counts. -/
theorem lookup_ofJsonFields (fields : List (String × Json)) (name : String) :
    (ofJsonFields fields).reverse.lookup name = ((Json.obj fields).field? name).map ofJson := by
  have hmap : ofJsonFields fields = fields.map fun f => (f.1, ofJson f.2) := by
    induction fields with
    | nil => rfl
    | cons f rest ih => rw [ofJsonFields, ih, List.map_cons]
  rw [hmap, ← List.map_reverse, Json.field?]
  induction fields.reverse with
  | nil => rfl
  | cons f rest ih =>
    rw [List.map_cons, List.lookup_cons, List.find?_cons, BEq.comm]
    cases f.1 == name with
    | true => rfl
    | false => exact ih

end Document

namespace ReactionRule

open Document

def kind : ReactionRule → RuleKind
  | .none => .none
  | .alert _ => .alert
  | .close => .close
  | .delayed _ _ => .delayed
  | .reflect _ => .reflect

/-- The names that mean something to a rule, in the order in which they are written. -/
def names : ReactionRule → List String
  | .none => ["type"]
  | .alert _ => ["type", "alert"]
  | .close => ["type"]
  | .delayed _ _ => ["type", "delay_ms", "then"]
  | .reflect _ => ["type", "destination"]

/-- A rule is what the values under its names say. -/
def SaidBy (rule : ReactionRule) (nested : Bool) (value? : String → Option Document) : Prop :=
  (value? "type").bind (RuleKind.ofDocument? nested) = some rule.kind ∧
    match rule with
    | .none => True
    | .alert a => (value? "alert").elim (some Alert.handshakeFailure) alert? = some a
    | .close => True
    | .delayed delayMs next => (value? "delay_ms").bind number? = some delayMs ∧
        (value? "then").bind (rule? true) = some next
    | .reflect destination => (value? "destination").bind text? = some destination

theorem nextInTable?_eq (fields : List (String × Document)) :
    nextInTable? fields = (fields.lookup "then").bind (rule? true) := by
  induction fields with
  | nil => rfl
  | cons f rest ih =>
    rw [nextInTable?, List.lookup_cons]
    by_cases h : f.1 = "then"
    · simp [h]
    · have hb : ("then" == f.1) = false := by simpa using Ne.symm h
      rw [if_neg h, hb, ih]

theorem rule?_table_eq_some_iff {nested : Bool} {fields : List (String × Document)}
    {rule : ReactionRule} :
    rule? nested (.table fields) = some rule ↔ rule.SaidBy nested (List.lookup · fields) := by
  rw [rule?]
  unfold SaidBy
  cases (fields.lookup "type").bind (RuleKind.ofDocument? nested) with
  | none => simp
  | some k =>
    cases k with
    | none => cases rule <;> simp [kind]
    | alert =>
      cases hvalue : fields.lookup "alert" <;> cases rule <;> simp [kind, setting, hvalue]
    | close => cases rule <;> simp [kind]
    | delayed =>
      rw [nextInTable?_eq]
      cases (fields.lookup "delay_ms").bind number? <;>
        cases (fields.lookup "then").bind (rule? true) <;> cases rule <;> simp [kind]
    | reflect =>
      cases (fields.lookup "destination").bind text? <;> cases rule <;> simp [kind]

theorem rule?_obj_eq_some_iff {nested : Bool} {fields : List (String × Json)} {rule : ReactionRule} :
    rule? nested (.ofJson (.obj fields)) = some rule ↔
      rule.SaidBy nested fun name => ((Json.obj fields).field? name).map .ofJson := by
  rw [Document.ofJson, rule?_table_eq_some_iff, funext (lookup_ofJsonFields fields)]

theorem saidBy_congr {rule : ReactionRule} {nested : Bool} {value? value?' : String → Option Document}
    (h : ∀ name ∈ rule.names, value? name = value?' name) :
    rule.SaidBy nested value? ↔ rule.SaidBy nested value?' := by
  cases rule <;> simp_all [SaidBy, names]

/-- One JSON value and another one that says the same rule in other words. -/
inductive Rewording : ReactionRule → Json → Json → Prop
  /-- A field that means nothing to the rule. -/
  | extra {rule : ReactionRule} {before after : List (String × Json)} {name : String} {value : Json}
      (unknown : name ∉ rule.names) :
      Rewording rule (.obj (before ++ after)) (.obj (before ++ (name, value) :: after))
  /-- Two fields in the other order. -/
  | swapped {rule : ReactionRule} {before after : List (String × Json)} {x y : String × Json}
      (apart : x.1 ≠ y.1 ∨ x.1 ∉ rule.names) :
      Rewording rule (.obj (before ++ x :: y :: after)) (.obj (before ++ y :: x :: after))
  /-- The alert that is the standard one. -/
  | alert {fields : List (String × Json)} (absent : ∀ f ∈ fields, f.1 ≠ "alert") :
      Rewording (.alert .handshakeFailure) (.obj fields)
        (.obj (fields ++ [("alert", .str "handshake_failure")]))
  | listedAlert {kind : Json} :
      Rewording (.alert .handshakeFailure) (.arr [kind]) (.arr [kind, .str "handshake_failure"])
  /-- The rule behind a delay in other words. -/
  | inner {delayMs : UInt64} {next : ReactionRule} {before after : List (String × Json)}
      {value value' : Json} (below : Rewording next value value') :
      Rewording (.delayed delayMs next) (.obj (before ++ ("then", value) :: after))
        (.obj (before ++ ("then", value') :: after))
  | listedInner {delayMs : UInt64} {next : ReactionRule} {kind delay value value' : Json}
      (below : Rewording next value value') :
      Rewording (.delayed delayMs next) (.arr [kind, delay, value]) (.arr [kind, delay, value'])

theorem rule?_list_one_iff {nested : Bool} {kind : Document} {alert : Alert} :
    rule? nested (.list [kind]) = some (.alert alert) ↔
      RuleKind.ofDocument? nested kind = some .alert ∧ alert = .handshakeFailure := by
  unfold rule?
  cases RuleKind.ofDocument? nested kind with
  | none => simp
  | some k => cases k <;> simp [standard, eq_comm]

theorem rule?_list_two_iff {nested : Bool} {kind d : Document} {alert : Alert} :
    rule? nested (.list [kind, d]) = some (.alert alert) ↔
      RuleKind.ofDocument? nested kind = some .alert ∧ alert? d = some alert := by
  unfold rule?
  cases RuleKind.ofDocument? nested kind with
  | none => simp
  | some k =>
    cases k with
    | delayed => simp [nextInList?]
    | _ => simp

theorem nextInList?_one (d : Document) : nextInList? [d] = rule? true d := by
  rw [nextInList?.eq_def]

theorem rule?_list_three_iff {nested : Bool} {kind delay d : Document} {delayMs : UInt64}
    {next : ReactionRule} :
    rule? nested (.list [kind, delay, d]) = some (.delayed delayMs next) ↔
      RuleKind.ofDocument? nested kind = some .delayed ∧ number? delay = some delayMs ∧
        rule? true d = some next := by
  rw [← nextInList?_one]
  unfold rule?
  cases RuleKind.ofDocument? nested kind with
  | none => simp
  | some k =>
    cases k with
    | delayed =>
      dsimp only
      cases number? delay <;> cases nextInList? [d] <;> simp
    | _ => simp

theorem Rewording.rule?_iff {rule : ReactionRule} {j j' : Json} (h : Rewording rule j j')
    (nested : Bool) :
    rule? nested (.ofJson j) = some rule ↔ rule? nested (.ofJson j') = some rule := by
  induction h generalizing nested with
  | extra unknown =>
    rw [rule?_obj_eq_some_iff, rule?_obj_eq_some_iff]
    refine saidBy_congr fun name hname => ?_
    rw [Json.field?_insert fun hsame => unknown (by rwa [hsame])]
  | swapped apart =>
    rw [rule?_obj_eq_some_iff, rule?_obj_eq_some_iff]
    refine saidBy_congr fun name hname => ?_
    rw [Json.field?_swap]
    rcases apart with hne | hunknown
    · exact Classical.or_iff_not_imp_left.mpr fun hx hy => hne (by simp_all)
    · exact .inl fun hsame => hunknown (by rwa [hsame])
  | alert absent =>
    have hread : alert? (.text "handshake_failure") = some .handshakeFailure := by decide
    rw [rule?_obj_eq_some_iff, rule?_obj_eq_some_iff, SaidBy, SaidBy]
    simp [Json.field?_append, Json.field?_cons, Json.field?_nil, Document.ofJson, hread,
      Json.field?_eq_none_of_forall absent]
  | listedAlert =>
    have hread : alert? (.text "handshake_failure") = some .handshakeFailure := by decide
    simp only [Document.ofJson, ofJsonItems, rule?_list_one_iff, rule?_list_two_iff, hread]
  | @inner delayMs next before after value value' below ih =>
    rw [rule?_obj_eq_some_iff, rule?_obj_eq_some_iff]
    rcases Json.field?_exchange before after "then" value value' with ⟨hvalue, hvalue'⟩ | hsame
    · have hother (name : String) (hname : "then" ≠ name) :=
        (Json.field?_insert hname before after value).trans
          (Json.field?_insert hname before after value').symm
      simp only [SaidBy, hvalue, hvalue', hother "type" (by decide), hother "delay_ms" (by decide),
        Option.map_some, Option.bind_some, ih]
    · refine saidBy_congr fun name _ => congrArg _ ?_
      by_cases hname : "then" = name
      · rw [← hname, hsame]
      · rw [Json.field?_insert hname, Json.field?_insert hname]
  | listedInner below ih =>
    simp only [Document.ofJson, ofJsonItems, rule?_list_three_iff, ih]

/-- However a rule is reworded, it is read from one wording if it is read from the other. -/
theorem ofJson?_iff_of_reworded {rule : ReactionRule} {j j' : Json}
    (h : Relation.EqvGen (Rewording rule) j j') :
    ofJson? j = some rule ↔ ofJson? j' = some rule := by
  induction h with
  | rel j j' hstep => exact hstep.rule?_iff false
  | refl j => rfl
  | symm j j' _ ih => exact ih.symm
  | trans j j₁ j' _ _ ih ih' => exact ih.trans ih'

theorem ofJson?_of_no_alert {fields : List (String × Json)}
    (hkind : (Json.obj fields).field? "type" = some (.str "alert"))
    (habsent : ∀ f ∈ fields, f.1 ≠ "alert") :
    ofJson? (.obj fields) = some (.alert .handshakeFailure) := by
  have hname : RuleKind.ofDocument? false (.text "alert") = some .alert := by decide
  rw [ofJson?, rule?_obj_eq_some_iff, SaidBy, hkind, Json.field?_eq_none_of_forall habsent]
  exact ⟨hname, rfl⟩

end ReactionRule

namespace Document

theorem number?_ofNumber (n : UInt64) : number? (ofJson (ofNumber n)) = some n := by
  have hlt : n.toNat < Nat.pow 2 64 := n.toNat_lt
  simp only [ofNumber, Json.nat, ofJson, number?, if_pos hlt, UInt64.ofNat_toNat]

theorem orUnset_ofOption {α : Type} {read : Document → Option α} {write : α → Json}
    (hread : ∀ a, read (ofJson (write a)) = some a) (hnull : ∀ a, ofJson (write a) ≠ .null)
    (o : Option α) : orUnset read (ofJson (Json.ofOption write o)) = some o := by
  cases o with
  | none => rfl
  | some a =>
    unfold orUnset
    split
    next h => exact absurd h (hnull a)
    next => rw [Json.ofOption, hread, Option.map_some]

theorem setting_ofJsonFields {α : Type} (fields : List (String × Json)) (name : String)
    (read : Document → Option α) (default : α) :
    setting (ofJsonFields fields).reverse name read default =
      ((Json.obj fields).field? name).elim (some default) fun j => read (ofJson j) := by
  rw [setting, lookup_ofJsonFields]
  cases (Json.obj fields).field? name <;> rfl

end Document

open Document

theorem RuleKind.ofDocument?_name (nested : Bool) (k : RuleKind) :
    ofDocument? nested (.text k.name) = some k := by
  have hname : ofName? k.name = some k := by cases k <;> decide
  exact hname

theorem ReactionRule.rule?_toJson (rule : ReactionRule) (nested : Bool) :
    rule? nested (.ofJson rule.toJson) = some rule := by
  induction rule generalizing nested with
  | none =>
    rw [toJson, rule?_obj_eq_some_iff]
    exact ⟨RuleKind.ofDocument?_name nested .none, trivial⟩
  | alert a =>
    rw [toJson, rule?_obj_eq_some_iff]
    exact ⟨RuleKind.ofDocument?_name nested .alert, a.ofName?_name⟩
  | close =>
    rw [toJson, rule?_obj_eq_some_iff]
    exact ⟨RuleKind.ofDocument?_name nested .close, trivial⟩
  | delayed delayMs next ih =>
    rw [toJson, rule?_obj_eq_some_iff]
    exact ⟨RuleKind.ofDocument?_name nested .delayed, number?_ofNumber delayMs, ih true⟩
  | reflect destination =>
    rw [toJson, rule?_obj_eq_some_iff]
    exact ⟨RuleKind.ofDocument?_name nested .reflect, rfl⟩

section Sections
variable (dialect : Dialect)

theorem orUnset_text (o : Option String) :
    orUnset text? (.ofJson (Json.ofOption .str o)) = some o :=
  orUnset_ofOption (fun _ => rfl) (by simp [Document.ofJson]) o

theorem listener?_toJson (s : Listener) : listener? dialect (.ofJson s.toJson) = some s := by
  simp [listener?, Listener.toJson, Document.ofJson, section?, setting_ofJsonFields, Json.field?,
    text?, flag?, number?_ofNumber]

theorem tls?_toJson (s : Tls) : tls? dialect (.ofJson s.toJson) = some s := by
  simp [tls?, Tls.toJson, Document.ofJson, section?, setting_ofJsonFields, Json.field?, orUnset_text]

theorem sessionTickets?_toJson (s : SessionTickets) :
    sessionTickets? dialect (.ofJson s.toJson) = some s := by
  have hmax : orUnset number? (.ofJson (Json.ofOption ofNumber s.maxKeys)) = some s.maxKeys :=
    orUnset_ofOption number?_ofNumber (by simp [ofNumber, Json.nat, Document.ofJson]) s.maxKeys
  simp [sessionTickets?, SessionTickets.toJson, Document.ofJson, section?, setting_ofJsonFields,
    Json.field?, orUnset_text, number?_ofNumber, hmax]

theorem mimicry?_toJson (s : Mimicry) : mimicry? dialect (.ofJson s.toJson) = some s := by
  have hprotocol : orUnset (choice? dialect.isBare Protocol.ofName?)
      (.ofJson (Json.ofOption (fun p => .str p.name) s.protocol)) = some s.protocol :=
    orUnset_ofOption (fun _ => rfl) (by simp [Document.ofJson]) s.protocol
  simp [mimicry?, Mimicry.toJson, Document.ofJson, section?, setting_ofJsonFields, Json.field?,
    number?_ofNumber, hprotocol]

theorem forwarding?_toJson (s : Forwarding) : forwarding? dialect (.ofJson s.toJson) = some s := by
  simp [forwarding?, Forwarding.toJson, Document.ofJson, section?, setting_ofJsonFields, Json.field?,
    text?, number?_ofNumber]

theorem observability?_toJson (s : Observability) :
    observability? dialect (.ofJson s.toJson) = some s := by
  simp [observability?, Observability.toJson, Document.ofJson, section?, setting_ofJsonFields,
    Json.field?, text?, flag?]

end Sections

theorem ofJson?_toJson (s : Settings) : ofJson? s.toJson = some s := by
  simp [ofJson?, ofDocument?, toJson, Document.ofJson, section?, setting_ofJsonFields, Json.field?,
    listener?_toJson, tls?_toJson, sessionTickets?_toJson, ReactionRule.rule?_toJson, mimicry?_toJson,
    forwarding?_toJson, observability?_toJson]

/-- The names of a section's values, in the order in which they are written. -/
def Section.names (s : Settings) : Section → List String
  | .listener => ["bind_address", "max_connections", "handshake_timeout_secs", "loopback_bypass"]
  | .tls => ["cert_path", "key_path"]
  | .sessionTickets =>
    ["keys_base64", "key_file", "rotation_interval_secs", "max_keys", "ticket_lifetime_secs"]
  | .reaction => s.reaction.names
  | .mimicry => ["protocol", "prefix_timeout_secs", "hold_open_secs"]
  | .forwarding => ["forward_address", "connect_timeout_secs"]
  | .observability => ["log_level", "metrics_enabled", "metrics_address"]

/-- A value that may be left unset, and is. -/
inductive Section.Unset (s : Settings) : Section → String → Prop
  | certificate (unset : s.tls.certPath = none) : Unset s .tls "cert_path"
  | key (unset : s.tls.keyPath = none) : Unset s .tls "key_path"
  | keys (unset : s.sessionTickets.keysBase64 = none) : Unset s .sessionTickets "keys_base64"
  | keyFile (unset : s.sessionTickets.keyFile = none) : Unset s .sessionTickets "key_file"
  | maxKeys (unset : s.sessionTickets.maxKeys = none) : Unset s .sessionTickets "max_keys"
  | protocol (unset : s.mimicry.protocol = none) : Unset s .mimicry "protocol"

/-- A JSON value has all sections and all that is in them, and null for what is unset and nothing else. -/
structure WrittenAs (s : Settings) (j : Json) : Prop where
  sections : ∃ parts, j = .obj parts ∧ parts.map Prod.fst = Section.all.map Section.name
  values : ∀ part : Section, ∃ fields, j.field? part.name = some (.obj fields) ∧
    fields.map Prod.fst = part.names s
  unset : ∀ (part : Section) name,
    (j.field? part.name).bind (Json.field? · name) = some .null ↔ part.Unset s name

theorem ofNumber_ne_null (n : UInt64) : ofNumber n ≠ .null := by simp [ofNumber, Json.nat]

theorem ReactionRule.toJson_fields (rule : ReactionRule) :
    ∃ fields, rule.toJson = .obj fields ∧ fields.map Prod.fst = rule.names ∧
      ∀ name, (name, .null) ∉ fields := by
  cases rule with
  | delayed delayMs next =>
    have hnext : next.toJson ≠ .null := by cases next <;> simp [toJson]
    exact ⟨_, rfl, rfl, by simp [(ofNumber_ne_null delayMs).symm, hnext.symm]⟩
  | _ => exact ⟨_, rfl, rfl, by simp⟩

theorem section_toJson (s : Settings) (part : Section) :
    ∃ fields, s.toJson.field? part.name = some (.obj fields) ∧ fields.map Prod.fst = part.names s ∧
      ∀ name, (name, .null) ∈ fields ↔ part.Unset s name := by
  cases part with
  | listener =>
    refine ⟨_, rfl, rfl, fun name => iff_of_false ?_ nofun⟩
    simp [ofNumber_ne_null, eq_comm (a := Json.null)]
  | tls =>
    refine ⟨_, rfl, rfl, fun name => ⟨?_, ?_⟩⟩
    · simp only [List.mem_cons, Prod.mk.injEq, List.not_mem_nil, or_false, eq_comm (a := Json.null),
        Json.ofOption_eq_null_iff (f := .str) (by simp)]
      intro hall
      rcases hall with ⟨rfl, h⟩ | ⟨rfl, h⟩
      · exact .certificate h
      · exact .key h
    · intro hunset
      cases hunset with
      | certificate h => simp [h, Json.ofOption]
      | key h => simp [h, Json.ofOption]
  | sessionTickets =>
    refine ⟨_, rfl, rfl, fun name => ⟨?_, ?_⟩⟩
    · simp only [List.mem_cons, Prod.mk.injEq, List.not_mem_nil, or_false, eq_comm (a := Json.null),
        Json.ofOption_eq_null_iff (f := .str) (by simp), Json.ofOption_eq_null_iff ofNumber_ne_null,
        ofNumber_ne_null, and_false, false_or]
      intro hall
      rcases hall with ⟨rfl, h⟩ | ⟨rfl, h⟩ | ⟨rfl, h⟩
      · exact .keys h
      · exact .keyFile h
      · exact .maxKeys h
    · intro hunset
      cases hunset with
      | keys h => simp [h, Json.ofOption]
      | keyFile h => simp [h, Json.ofOption]
      | maxKeys h => simp [h, Json.ofOption]
  | reaction =>
    obtain ⟨fields, hfields, hnames, hnull⟩ := s.reaction.toJson_fields
    exact ⟨fields, congrArg some hfields, hnames, fun name => iff_of_false (hnull name) nofun⟩
  | mimicry =>
    refine ⟨_, rfl, rfl, fun name => ⟨?_, ?_⟩⟩
    · simp only [List.mem_cons, Prod.mk.injEq, List.not_mem_nil, or_false, eq_comm (a := Json.null),
        Json.ofOption_eq_null_iff (f := fun p : Protocol => .str p.name) (by simp), ofNumber_ne_null,
        and_false]
      intro hall
      obtain ⟨rfl, h⟩ := hall
      exact .protocol h
    · intro hunset
      cases hunset with
      | protocol h => simp [h, Json.ofOption]
  | forwarding =>
    refine ⟨_, rfl, rfl, fun name => iff_of_false ?_ nofun⟩
    simp [ofNumber_ne_null, eq_comm (a := Json.null)]
  | observability =>
    refine ⟨_, rfl, rfl, fun name => iff_of_false ?_ nofun⟩
    simp

theorem writtenAs_toJson (s : Settings) : s.WrittenAs s.toJson where
  sections := ⟨_, rfl, rfl⟩
  values part := by
    obtain ⟨fields, hfields, hnames, -⟩ := s.section_toJson part
    exact ⟨fields, hfields, hnames⟩
  unset part name := by
    obtain ⟨fields, hfields, hnames, hnull⟩ := s.section_toJson part
    have hnodup : (part.names s).Nodup := by
      cases part with
      | reaction => cases hrule : s.reaction <;> simp [Section.names, ReactionRule.names, hrule]
      | _ => simp [Section.names]
    rw [hfields, Option.bind_some, Json.field?_eq_some_iff (hnames ▸ hnodup), hnull]

/-- Settings and rules of any depth are what is read from the JSON value that is written for them, in
which nothing is left out. A rule is read as the same one however it is reworded, the alert that is left
out being the standard one, and of all its wordings the one that is written stands for it. -/
theorem settings_survive_writing :
    (∀ s : Settings, ofJson? s.toJson = some s ∧ s.WrittenAs s.toJson) ∧
    (∀ rule : ReactionRule, ReactionRule.ofJson? rule.toJson = some rule ∧
      ∃ fields, rule.toJson = .obj fields ∧ fields.map Prod.fst = rule.names) ∧
    (∀ fields, (Json.obj fields).field? "type" = some (.str "alert") →
      (∀ f ∈ fields, f.1 ≠ "alert") →
      ReactionRule.ofJson? (.obj fields) = some (.alert .handshakeFailure)) ∧
    ∀ j rule, ReactionRule.ofJson? j = some rule →
      (∀ j', Relation.EqvGen (ReactionRule.Rewording rule) j j' →
        ReactionRule.ofJson? j' = some rule) ∧
      (ReactionRule.ofJson? rule.toJson).map ReactionRule.toJson = some rule.toJson ∧
      ∀ j' rule', ReactionRule.ofJson? j' = some rule' →
        (rule'.toJson = rule.toJson ↔ ReactionRule.ofJson? j' = ReactionRule.ofJson? j) := by
  have hread (rule : ReactionRule) : ReactionRule.ofJson? rule.toJson = some rule :=
    rule.rule?_toJson false
  refine ⟨fun s => ⟨s.ofJson?_toJson, s.writtenAs_toJson⟩, fun rule => ⟨hread rule, ?_⟩,
    fun fields => ReactionRule.ofJson?_of_no_alert, fun j rule hj => ⟨?_, ?_, ?_⟩⟩
  · obtain ⟨fields, hfields, hnames, -⟩ := rule.toJson_fields
    exact ⟨fields, hfields, hnames⟩
  · intro j' hreworded
    exact (ReactionRule.ofJson?_iff_of_reworded hreworded).mp hj
  · rw [hread, Option.map_some]
  · intro j' rule' hj'
    rw [hj, hj', Option.some.injEq]
    refine ⟨fun hsame => ?_, fun hsame => hsame ▸ rfl⟩
    rw [← Option.some.injEq, ← hread rule', hsame, hread rule]

/-- The fields of a delay in the opposite order, and behind it an alert that is left out. -/
theorem settings_survive_writing_in_other_words :
    ReactionRule.ofJson? (.obj [
      ("type", .str "delayed"),
      ("delay_ms", ofNumber 5),
      ("then", .obj [("type", .str "alert"), ("alert", .str "handshake_failure")])]) =
        some (.delayed 5 (.alert .handshakeFailure)) ∧
    ReactionRule.ofJson? (.obj [
      ("then", .obj [("note", .null), ("type", .str "alert")]),
      ("delay_ms", ofNumber 5),
      ("type", .str "delayed")]) = some (.delayed 5 (.alert .handshakeFailure)) := by
  obtain ⟨-, hwritten, -, hreworded⟩ := settings_survive_writing
  have hread := (hwritten (.delayed 5 (.alert .handshakeFailure))).1
  refine ⟨hread, (hreworded _ _ hread).1 _ ?_⟩
  let type : String × Json := ("type", .str "delayed")
  let delay : String × Json := ("delay_ms", ofNumber 5)
  let next : String × Json := ("then", .obj [("note", .null), ("type", .str "alert")])
  refine .trans _ (.obj [type, delay, ("then", .obj [("type", .str "alert")])]) _ ?_ ?_
  · exact .symm _ _ (.rel _ _ (@ReactionRule.Rewording.inner _ _ [type, delay] [] _ _ (.alert (by simp))))
  refine .trans _ (.obj [type, delay, next]) _ ?_ ?_
  · exact .rel _ _ (@ReactionRule.Rewording.inner _ _ [type, delay] [] _ _
      (@ReactionRule.Rewording.extra _ [] _ _ _ (by decide)))
  refine .trans _ (.obj [delay, type, next]) _ ?_ ?_
  · exact .rel _ _ (@ReactionRule.Rewording.swapped _ [] _ _ _ (.inl (by decide)))
  refine .trans _ (.obj [delay, next, type]) _ ?_ ?_
  · exact .rel _ _ (@ReactionRule.Rewording.swapped _ [delay] _ _ _ (.inl (by decide)))
  · exact .rel _ _ (@ReactionRule.Rewording.swapped _ [] _ _ _ (.inl (by decide)))

end Settings
end Gatehouse
