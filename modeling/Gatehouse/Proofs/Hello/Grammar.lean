import Gatehouse.Hello.Parse
import Gatehouse.Proofs.Hello.Records

namespace Gatehouse.Hello
open Bytes

def Extension.bytes (x : Extension) : Bytes := ofNat16 x.kind.toNat ++ prefixed16 x.data

def extensionBytes (xs : List Extension) : Bytes := xs.flatMap Extension.bytes

def suiteBytes (suites : List UInt16) : Bytes := suites.flatMap fun s => ofNat16 s.toNat

/-- A body up to its extensions. -/
def ClientHello.stem (hello : ClientHello) : Bytes :=
  ofNat16 hello.legacyVersion.toNat ++ (hello.random ++ (prefixed8 hello.sessionId ++
    (prefixed16 (suiteBytes hello.cipherSuites) ++ prefixed8 hello.compressionMethods)))

/-- Every field has a length that can be written. -/
structure ClientHello.Fits (hello : ClientHello) : Prop where
  random : hello.random.length = 32
  sessionId : hello.sessionId.length ≤ 32
  suites : (suiteBytes hello.cipherSuites).length < 65536
  methods : hello.compressionMethods.length < 256
  data : ∀ x ∈ hello.extensions, x.data.length < 65536
  block : (extensionBytes hello.extensions).length < 65536

/-- The written forms of a body. A hello without extensions has two: its block may be empty or
left out. -/
def ClientHello.WrittenAs (hello : ClientHello) (body : Bytes) : Prop :=
  hello.Fits ∧ ∃ tail, body = hello.stem ++ tail ∧
    (hello.extensions = [] ∧ tail = [] ∨ tail = prefixed16 (extensionBytes hello.extensions))

@[simp] theorem suiteBytes_cons (s : UInt16) (suites : List UInt16) :
    suiteBytes (s :: suites) = ofNat16 s.toNat ++ suiteBytes suites := rfl

@[simp] theorem length_suiteBytes (suites : List UInt16) :
    (suiteBytes suites).length = 2 * suites.length := by
  induction suites with
  | nil => rfl
  | cons s suites ih => simp [ih]; omega

theorem pairs_suiteBytes (suites : List UInt16) : pairs (suiteBytes suites) = suites := by
  induction suites with
  | nil => rfl
  | cons s suites ih =>
    have hs := be16_ofNat s.toNat s.toNat_lt
    simp only [suiteBytes_cons, ofNat16, List.cons_append, List.nil_append, pairs, hs, ih,
      UInt16.ofNat_toNat]

theorem suiteBytes_pairs (bs : Bytes) (heven : bs.length % 2 = 0) : suiteBytes (pairs bs) = bs := by
  fun_induction pairs bs with
  | case1 hi lo rest ih =>
    have hrest : rest.length % 2 = 0 := by simp only [List.length_cons] at heven; omega
    rw [suiteBytes_cons, toNat_ofNat_be16, ofNat16_be16, ih hrest]
    rfl
  | case2 bs hshort =>
    match bs, hshort with
    | [], _ => rfl
    | [_], _ => simp at heven
    | hi :: lo :: rest, hshort => exact absurd rfl (hshort hi lo rest)

@[simp] theorem extensionBytes_nil : extensionBytes [] = [] := rfl

@[simp] theorem extensionBytes_cons (x : Extension) (xs : List Extension) :
    extensionBytes (x :: xs) = x.bytes ++ extensionBytes xs := rfl

theorem takeExtension_eq_ok_iff {bs rest : Bytes} {x : Extension} :
    takeExtension bs = .ok (x, rest) ↔ x.data.length < 65536 ∧ bs = x.bytes ++ rest := by
  simp only [takeExtension, except_bind_eq_ok_iff, Prod.exists, number16_eq_ok_iff_written,
    block16_eq_ok_iff, pure, Except.pure, Except.ok.injEq, Prod.mk.injEq]
  constructor
  · intro hall
    obtain ⟨kind, tail, ⟨hkind, rfl⟩, data, tail', ⟨hdata, rfl⟩, rfl, rfl⟩ := hall
    have hback : (UInt16.ofNat kind).toNat = kind := by
      simp only [UInt16.toNat_ofNat']
      omega
    exact ⟨hdata, by simp [Extension.bytes, hback]⟩
  · intro hall
    obtain ⟨hdata, rfl⟩ := hall
    exact ⟨x.kind.toNat, prefixed16 x.data ++ rest, ⟨x.kind.toNat_lt, by simp [Extension.bytes]⟩,
      x.data, rest, ⟨hdata, rfl⟩, by simp⟩

theorem extensions_nil : extensions [] = .ok [] := by rw [extensions]; rfl

theorem extensions_bytes_append (x : Extension) (hx : x.data.length < 65536) (rest : Bytes) :
    extensions (x.bytes ++ rest) = (x :: ·) <$> extensions rest := by
  have ht : takeExtension (x.bytes ++ rest) = .ok (x, rest) := takeExtension_eq_ok_iff.mpr ⟨hx, rfl⟩
  rw [extensions]
  split
  · rename_i hempty
    simp [Extension.bytes, ofNat16] at hempty
  · split
    · rename_i e he
      rw [ht] at he
      contradiction
    · rename_i y tail he
      rw [ht, Except.ok.injEq, Prod.mk.injEq] at he
      obtain ⟨rfl, rfl⟩ := he
      rfl

/-- A block of extensions is read exactly if it is made of them, from its first byte to its last. -/
theorem extensions_eq_ok_iff {bs : Bytes} {xs : List Extension} :
    extensions bs = .ok xs ↔ (∀ x ∈ xs, x.data.length < 65536) ∧ bs = extensionBytes xs := by
  constructor
  · intro h
    fun_induction extensions bs generalizing xs with
    | case1 bs hempty =>
      simp only [Except.ok.injEq] at h
      subst h
      simpa using hempty
    | case2 => contradiction
    | case3 bs _ x rest ht ih =>
      obtain ⟨hx, rfl⟩ := takeExtension_eq_ok_iff.mp ht
      obtain ⟨ys, hrest, rfl⟩ := except_map_eq_ok_iff.mp h
      obtain ⟨hys, rfl⟩ := ih hrest
      exact ⟨by simpa using ⟨hx, hys⟩, rfl⟩
  · intro hall
    obtain ⟨hxs, rfl⟩ := hall
    induction xs with
    | nil => exact extensions_nil
    | cons x xs ih =>
      rw [extensionBytes_cons, extensions_bytes_append x (hxs x (by simp)),
        ih (fun y hy => hxs y (by simp [hy]))]
      rfl

theorem finalExtensions_eq_ok_iff {bs : Bytes} {xs : List Extension} :
    finalExtensions bs = .ok xs ↔ (∀ x ∈ xs, x.data.length < 65536) ∧
      (extensionBytes xs).length < 65536 ∧
      (xs = [] ∧ bs = [] ∨ bs = prefixed16 (extensionBytes xs)) := by
  unfold finalExtensions
  split
  · rename_i hempty
    rw [List.isEmpty_iff] at hempty
    subst hempty
    constructor
    · intro h
      simp only [Except.ok.injEq] at h
      subst h
      simp
    · intro hall
      rcases hall with ⟨_, _, ⟨rfl, _⟩ | hbs⟩
      · rfl
      · simp [prefixed16, ofNat16] at hbs
  · rename_i hfull
    simp only [except_bind_eq_ok_iff, Prod.exists, block16_eq_ok_iff, extensions_eq_ok_iff]
    constructor
    · intro hall
      obtain ⟨block, rest, ⟨hlen, rfl⟩, found, ⟨hdata, rfl⟩, h⟩ := hall
      split at h
      · rename_i hrest
        simp only [pure, Except.pure, Except.ok.injEq] at h
        subst h
        rw [List.isEmpty_iff] at hrest
        exact ⟨hdata, hlen, .inr (by simp [hrest])⟩
      · contradiction
    · intro hall
      rcases hall with ⟨hdata, hlen, ⟨_, rfl⟩ | rfl⟩
      · simp at hfull
      · exact ⟨extensionBytes xs, [], ⟨hlen, by simp⟩, xs, ⟨hdata, rfl⟩, rfl⟩

theorem parseBody_eq_ok_iff {body : Bytes} {hello : ClientHello} :
    parseBody body = .ok hello ↔ hello.WrittenAs body := by
  simp only [parseBody, except_bind_eq_ok_iff, checked_eq_ok_iff, Prod.exists,
    number16_eq_ok_iff_written, take_eq_ok_iff, block8_eq_ok_iff, block16_eq_ok_iff,
    finalExtensions_eq_ok_iff, pure, Except.pure, Except.ok.injEq]
  constructor
  · intro hall
    obtain ⟨version, _, ⟨hversion, rfl⟩, random, _, ⟨rfl, hrandom⟩, sessionId, _, ⟨_, rfl⟩, hid,
      suites, _, ⟨hsuites, rfl⟩, heven, methods, tail, ⟨hmethods, rfl⟩, found,
      ⟨hdata, hblock, htail⟩, rfl⟩ := hall
    have hback : (UInt16.ofNat version).toNat = version := by
      simp only [UInt16.toNat_ofNat']
      omega
    have hpairs : suiteBytes (pairs suites) = suites := suiteBytes_pairs suites (by omega)
    refine ⟨⟨hrandom, Nat.le_of_not_lt hid, by simpa only [hpairs] using hsuites, hmethods, hdata,
      hblock⟩, tail, ?_, htail⟩
    simp only [ClientHello.stem, hback, hpairs, List.append_assoc]
  · intro hall
    obtain ⟨fits, tail, rfl, htail⟩ := hall
    have hid : hello.sessionId.length < 256 := Nat.lt_of_le_of_lt fits.sessionId (by decide)
    simp only [ClientHello.stem, List.append_assoc]
    refine ⟨_, _, ⟨hello.legacyVersion.toNat_lt, rfl⟩, _, _, ⟨rfl, fits.random⟩, _, _, ⟨hid, rfl⟩,
      Nat.not_lt.mpr fits.sessionId, _, _, ⟨fits.suites, rfl⟩, by simp, _, _,
      ⟨fits.methods, rfl⟩, _, ⟨fits.data, fits.block, htail⟩, ?_⟩
    simp only [UInt16.ofNat_toNat, pairs_suiteBytes]

theorem ClientHello.WrittenAs.length_lt {hello : ClientHello} {body : Bytes}
    (h : hello.WrittenAs body) : body.length < 16777216 := by
  obtain ⟨fits, tail, rfl, htail⟩ := h
  have hrandom := fits.random
  have hid := fits.sessionId
  have hsuites := fits.suites
  have hmethods := fits.methods
  have hblock := fits.block
  have hlen : tail.length < 65538 := by
    rcases htail with ⟨_, rfl⟩ | rfl
    · simp
    · simp only [length_prefixed16]
      omega
  simp only [ClientHello.stem, List.length_append, length_ofNat16, length_prefixed8,
    length_prefixed16]
  omega

/-- The written forms of a handshake message that holds a hello. -/
def ClientHello.SentAs (hello : ClientHello) (message : Bytes) : Prop :=
  ∃ body, hello.WrittenAs body ∧ message = clientHelloType :: (ofNat24 body.length ++ body)

theorem parseMessage_of_numbered {rest body : Bytes} {n : Nat}
    (hnumber : number24 .handshakeLength rest = .ok (n, body))
    (hbody : take n .handshakeBody body = .ok (body, [])) :
    parseMessage (clientHelloType :: rest) = parseBody body := by
  simp only [parseMessage, byte, bind, Except.bind, hnumber, hbody, ne_eq, not_true_eq_false,
    if_false]

/-- Of a complete message, parsing looks at its type and at the whole of its body. -/
theorem parseMessage_complete {kind : UInt8} {body : Bytes} (hlen : body.length < 16777216) :
    parseMessage (kind :: (ofNat24 body.length ++ body)) =
      if kind = clientHelloType then parseBody body else .error (.notClientHello kind) := by
  by_cases hkind : kind = clientHelloType
  · have hbody : take body.length .handshakeBody body = .ok (body, []) :=
      take_eq_ok_iff.mpr ⟨(List.append_nil body).symm, rfl⟩
    rw [hkind, if_pos rfl]
    exact parseMessage_of_numbered (number24_ofNat24 hlen _ _) hbody
  · rw [if_neg hkind]
    simp [parseMessage, byte, hkind, bind, Except.bind, throw, throwThe, MonadExceptOf.throw]

theorem parseMessage_eq_ok_iff {message : Bytes} {hello : ClientHello} (hc : Complete message) :
    parseMessage message = .ok hello ↔ hello.SentAs message := by
  obtain ⟨kind, body, hlen, rfl⟩ := complete_iff.mp hc
  rw [parseMessage_complete hlen]
  constructor
  · intro h
    split at h
    · rename_i hkind
      exact ⟨body, parseBody_eq_ok_iff.mp h, by rw [hkind]⟩
    · contradiction
  · intro hall
    obtain ⟨body', h, he⟩ := hall
    obtain ⟨hkind, htail⟩ := List.cons.inj he
    obtain ⟨-, hbody⟩ := List.append_inj htail rfl
    rw [if_pos hkind, parseBody_eq_ok_iff, hbody]
    exact h

theorem ClientHello.SentAs.complete {hello : ClientHello} {message : Bytes}
    (h : hello.SentAs message) : Complete message := by
  obtain ⟨body, hbody, rfl⟩ := h
  exact complete_iff.mpr ⟨clientHelloType, body, hbody.length_lt, rfl⟩

/-- What is parsed off the front of `raw`: records that carry a hello, and what is behind them. -/
theorem parse_eq_ok_iff {raw : Bytes} {p : Parsed} :
    parse raw = .ok p ↔ ∃ fs message, Carries fs message ∧ p.hello.SentAs message ∧
      p.records = Fragment.wire fs ∧ raw = p.records ++ p.rest := by
  simp only [parse, except_bind_eq_ok_iff, Prod.exists, reassemble_eq_ok_iff, pure, Except.pure,
    Except.ok.injEq]
  constructor
  · intro hall
    obtain ⟨message, rest, ⟨fs, hfs, rfl⟩, hello, hm, rfl⟩ := hall
    obtain ⟨hcarry, hc⟩ := continues_nil_iff.mp hfs
    exact ⟨fs, message, hcarry, (parseMessage_eq_ok_iff hc).mp hm, by simp, by simp⟩
  · intro hall
    obtain ⟨fs, message, hcarry, hsent, hrecords, rfl⟩ := hall
    refine ⟨message, p.rest, ⟨fs, continues_nil_iff.mpr ⟨hcarry, hsent.complete⟩, by rw [hrecords]⟩,
      p.hello, (parseMessage_eq_ok_iff hsent.complete).mpr hsent, ?_⟩
    simp

/-- The extensions up to the first of a kind, that one, and what is behind it. -/
theorem extension?_eq_some_iff {hello : ClientHello} {kind : UInt16} {data : Bytes} :
    hello.extension? kind = some data ↔ ∃ before after,
      hello.extensions = before ++ ⟨kind, data⟩ :: after ∧ ∀ x ∈ before, x.kind ≠ kind := by
  unfold ClientHello.extension?
  constructor
  · intro h
    obtain ⟨x, hx, rfl⟩ := Option.map_eq_some_iff.mp h
    obtain ⟨hkind, before, after, he, hbefore⟩ := List.find?_eq_some_iff_append.mp hx
    have hk : x.kind = kind := by simpa using hkind
    subst hk
    exact ⟨before, after, he, by simpa using hbefore⟩
  · intro hall
    obtain ⟨before, after, he, hbefore⟩ := hall
    refine Option.map_eq_some_iff.mpr ⟨⟨kind, data⟩, List.find?_eq_some_iff_append.mpr ?_, rfl⟩
    exact ⟨by simp, before, after, he, by simpa using hbefore⟩

theorem extension?_eq_none_iff {hello : ClientHello} {kind : UInt16} :
    hello.extension? kind = none ↔ ∀ x ∈ hello.extensions, x.kind ≠ kind := by
  simp [ClientHello.extension?]

/-- The ticket of a hello is that of its first ticket extension. -/
def ClientHello.ShowsFirstTicket (hello : ClientHello) : Prop :=
  (hello.offersTicket = true ∧ ∃ before after,
    hello.extensions = before ++ ⟨35, hello.sessionTicket⟩ :: after ∧ ∀ x ∈ before, x.kind ≠ 35) ∨
  (hello.offersTicket = false ∧ hello.sessionTicket = [] ∧ ∀ x ∈ hello.extensions, x.kind ≠ 35)

theorem ClientHello.showsFirstTicket (hello : ClientHello) : hello.ShowsFirstTicket := by
  unfold ShowsFirstTicket offersTicket sessionTicket sessionTicketKind
  cases h : hello.extension? 35 with
  | none => exact .inr ⟨rfl, rfl, extension?_eq_none_iff.mp h⟩
  | some data => exact .inl ⟨rfl, extension?_eq_some_iff.mp h⟩

/-- Parsing succeeds on exactly the written forms of a hello, split over records in any way and
with anything behind them, and gives back the parts that they were written from. -/
theorem parse_accepts_the_grammar (raw : Bytes) :
    ((∃ p, parse raw = .ok p) ↔ ∃ fs message tail, ∃ hello : ClientHello,
      raw = Fragment.wire fs ++ tail ∧ Carries fs message ∧ hello.SentAs message) ∧
    (∀ fs message tail, ∀ hello : ClientHello,
      raw = Fragment.wire fs ++ tail → Carries fs message → hello.SentAs message →
        parse raw = .ok ⟨hello, Fragment.wire fs, tail⟩) ∧
    ∀ p, parse raw = .ok p → p.raw = raw ∧ p.hello.ShowsFirstTicket := by
  have exactly (fs : List Fragment) (message tail : Bytes) (hello : ClientHello)
      (hraw : raw = Fragment.wire fs ++ tail) (hfs : Carries fs message)
      (hm : hello.SentAs message) : parse raw = .ok ⟨hello, Fragment.wire fs, tail⟩ :=
    parse_eq_ok_iff.mpr ⟨fs, message, hfs, hm, rfl, hraw⟩
  refine ⟨⟨?_, ?_⟩, exactly, ?_⟩
  · intro hall
    obtain ⟨p, hp⟩ := hall
    obtain ⟨fs, message, hfs, hm, hrecords, hraw⟩ := parse_eq_ok_iff.mp hp
    exact ⟨fs, message, p.rest, p.hello, hrecords ▸ hraw, hfs, hm⟩
  · intro hall
    obtain ⟨fs, message, tail, hello, hraw, hfs, hm⟩ := hall
    exact ⟨_, exactly fs message tail hello hraw hfs hm⟩
  · intro p hp
    obtain ⟨_, _, _, _, _, hraw⟩ := parse_eq_ok_iff.mp hp
    exact ⟨hraw.symm, p.hello.showsFirstTicket⟩

end Gatehouse.Hello
