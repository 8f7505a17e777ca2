import Gatehouse.Hello.ServerName
import Gatehouse.Proofs.Hello.Grammar
import Gatehouse.Proofs.Text.Utf8

namespace Gatehouse.Hello
open Bytes

/-- An entry of a server name list. -/
structure NameEntry where
  kind : UInt8
  name : Bytes

def NameEntry.bytes (entry : NameEntry) : Bytes := entry.kind :: prefixed16 entry.name

def nameBytes (entries : List NameEntry) : Bytes := entries.flatMap NameEntry.bytes

@[simp] theorem nameBytes_nil : nameBytes [] = [] := rfl

@[simp] theorem nameBytes_cons (entry : NameEntry) (entries : List NameEntry) :
    nameBytes (entry :: entries) = entry.bytes ++ nameBytes entries := rfl

/-- A list that asks for a host: names of other types, the one of the host, and anything behind it. -/
def NamesHost (names : Bytes) (host : String) : Prop :=
  ∃ others after, (∀ entry ∈ others, entry.kind ≠ 0 ∧ entry.name.length < 65536) ∧
    (ofString host).length < 65536 ∧
    names = nameBytes others ++ (NameEntry.bytes ⟨0, ofString host⟩ ++ after)

/-- An extension that asks for a host: such a list behind its length, and anything behind that. -/
def HoldsHost (data : Bytes) (host : String) : Prop :=
  ∃ names behind, names.length < 65536 ∧ data = prefixed16 names ++ behind ∧ NamesHost names host

/-- A hello asks for the host that the first of its server name extensions asks for. -/
def ClientHello.Asks (hello : ClientHello) (host : String) : Prop :=
  ∃ before data after, hello.extensions = before ++ ⟨0, data⟩ :: after ∧
    (∀ x ∈ before, x.kind ≠ 0) ∧ HoldsHost data host

/-- Whatever is made of a block and the bytes behind it, if the block is there in full. -/
theorem cut_eq_some_iff {α : Type} {f : Bytes → Bytes → α} {hi lo : UInt8} {rest : Bytes} {a : α} :
    (if be16 hi lo ≤ rest.length then some (f (rest.take (be16 hi lo)) (rest.drop (be16 hi lo)))
      else none) = some a ↔
      ∃ front back, front.length < 65536 ∧ hi :: lo :: rest = prefixed16 front ++ back ∧
        f front back = a := by
  have written (front back : Bytes) : rest = front ++ back ∧ front.length = be16 hi lo ↔
      front.length < 65536 ∧ hi :: lo :: rest = prefixed16 front ++ back := by
    -- The lists are cut as `block16` cuts, which only tells more of what is wrong.
    have hread : block16 .extensionData (hi :: lo :: rest) = take (be16 hi lo) .extensionData rest :=
      rfl
    rw [← take_eq_ok_iff, ← hread, block16_eq_ok_iff]
  constructor
  · intro h
    split at h
    next hfits =>
      have hcut := (written (rest.take (be16 hi lo)) (rest.drop (be16 hi lo))).mp
        ⟨(List.take_append_drop _ _).symm, List.length_take_of_le hfits⟩
      exact ⟨_, _, hcut.1, hcut.2, Option.some.inj h⟩
    next => contradiction
  · intro hall
    obtain ⟨front, back, hlen, hbytes, rfl⟩ := hall
    obtain ⟨rfl, hsize⟩ := (written front back).mpr ⟨hlen, hbytes⟩
    rw [← hsize, List.take_left, List.drop_left, if_pos (by simp)]

theorem nameList?_eq_some_iff {data names : Bytes} :
    nameList? data = some names ↔
      ∃ behind, names.length < 65536 ∧ data = prefixed16 names ++ behind := by
  unfold nameList?
  split
  next hi lo rest =>
    refine (cut_eq_some_iff (f := fun front _ => front)).trans ?_
    constructor
    · intro hall
      obtain ⟨front, back, hlen, hbytes, rfl⟩ := hall
      exact ⟨back, hlen, hbytes⟩
    · intro hall
      obtain ⟨behind, hlen, hbytes⟩ := hall
      exact ⟨names, behind, hlen, hbytes, rfl⟩
  next hshort =>
    refine iff_of_false (by simp) ?_
    intro hall
    obtain ⟨behind, -, rfl⟩ := hall
    exact hshort _ _ _ rfl

theorem takeName?_eq_some_iff {bs name rest : Bytes} {kind : UInt8} :
    takeName? bs = some (kind, name, rest) ↔
      name.length < 65536 ∧ bs = NameEntry.bytes ⟨kind, name⟩ ++ rest := by
  unfold takeName?
  split
  next first hi lo tail =>
    refine (cut_eq_some_iff (f := fun front back => (first, front, back))).trans ?_
    constructor
    · intro hall
      obtain ⟨front, back, hlen, hbytes, hparts⟩ := hall
      obtain ⟨rfl, rfl, rfl⟩ : first = kind ∧ front = name ∧ back = rest := by simpa using hparts
      exact ⟨hlen, congrArg (first :: ·) hbytes⟩
    · intro hall
      obtain ⟨hlen, hbytes⟩ := hall
      obtain ⟨rfl, htail⟩ := List.cons.inj hbytes
      exact ⟨name, rest, hlen, htail, rfl⟩
  next hshort =>
    refine iff_of_false (by simp) ?_
    intro hall
    obtain ⟨-, rfl⟩ := hall
    exact hshort _ _ _ _ rfl

theorem hostName?_of_take {names name rest : Bytes} {kind : UInt8}
    (h : takeName? names = some (kind, name, rest)) :
    hostName? names = if kind = 0 then toString? name else hostName? rest := by
  rw [hostName?]
  split
  next htake =>
    rw [h] at htake
    contradiction
  next kind' name' rest' htake =>
    rw [h, Option.some.injEq, Prod.mk.injEq, Prod.mk.injEq] at htake
    obtain ⟨rfl, rfl, rfl⟩ := htake
    rfl

theorem hostName?_eq_some_iff {names : Bytes} {host : String} :
    hostName? names = some host ↔ NamesHost names host := by
  constructor
  · intro h
    fun_induction hostName? names with
    | case1 => contradiction
    | case2 names name rest htake =>
      obtain ⟨hlen, rfl⟩ := takeName?_eq_some_iff.mp htake
      obtain rfl := toString?_eq_some_iff.mp h
      exact ⟨[], rest, nofun, hlen, rfl⟩
    | case3 names kind name rest htake hkind ih =>
      obtain ⟨hlen, rfl⟩ := takeName?_eq_some_iff.mp htake
      obtain ⟨others, after, hothers, hhost, rfl⟩ := ih h
      refine ⟨⟨kind, name⟩ :: others, after, ?_, hhost, by simp⟩
      exact List.forall_mem_cons.mpr ⟨⟨hkind, hlen⟩, hothers⟩
  · intro hall
    obtain ⟨others, after, hothers, hhost, rfl⟩ := hall
    -- Each name in front is passed over; what is behind the host is never taken off.
    induction others with
    | nil =>
      rw [nameBytes_nil, List.nil_append, hostName?_of_take (takeName?_eq_some_iff.mpr ⟨hhost, rfl⟩),
        if_pos rfl]
      exact toString?_eq_some_iff.mpr rfl
    | cons entry others ih =>
      obtain ⟨⟨hkind, hlen⟩, hrest⟩ := List.forall_mem_cons.mp hothers
      rw [nameBytes_cons, List.append_assoc,
        hostName?_of_take (takeName?_eq_some_iff.mpr ⟨hlen, rfl⟩), if_neg hkind]
      exact ih hrest

theorem ClientHello.serverName?_eq_some_iff {hello : ClientHello} {host : String} :
    hello.serverName? = some host ↔ hello.Asks host := by
  simp only [serverName?, Option.bind_eq_some_iff, extension?_eq_some_iff, nameList?_eq_some_iff,
    hostName?_eq_some_iff, serverNameKind]
  constructor
  · intro hall
    obtain ⟨data, ⟨before, after, hx, hfirst⟩, names, ⟨behind, hlen, hdata⟩, hhost⟩ := hall
    exact ⟨before, data, after, hx, hfirst, names, behind, hlen, hdata, hhost⟩
  · intro hall
    obtain ⟨before, data, after, hx, hfirst, names, behind, hlen, hdata, hhost⟩ := hall
    exact ⟨data, ⟨before, after, hx, hfirst⟩, names, ⟨behind, hlen, hdata⟩, hhost⟩

theorem ClientHello.serverName?_eq_none_iff {hello : ClientHello} :
    hello.serverName? = none ↔ ∀ host, ¬ hello.Asks host := by
  rw [Option.eq_none_iff_forall_ne_some]
  exact forall_congr' fun host => not_congr serverName?_eq_some_iff

/-- Any cut into records that are not empty and not too large carries what they hold. -/
theorem carries_joined {fs : List Fragment} (hne : fs ≠ [])
    (full : ∀ f ∈ fs, f.payload ≠ [] ∧ f.payload.length ≤ maxPayload) :
    Carries fs (Fragment.joined fs) := by
  refine ⟨hne, fun f hf => (full f hf).2, rfl, ?_⟩
  intro fewer hpre hfewer
  obtain ⟨more, rfl⟩ := hpre
  cases more with
  | nil => exact absurd (List.append_nil fewer).symm hfewer
  | cons f more =>
    have hpayload := List.length_pos_iff.mpr (full f (by simp)).1
    simp only [Fragment.joined, List.flatMap_append, List.flatMap_cons, List.length_append]
    omega

/-- There are records for any message: one for each of its bytes will do. -/
theorem exists_carries {message : Bytes} (hne : message ≠ []) : ∃ fs, Carries fs message := by
  have hrecords : message.map (fun b => (⟨3, 3, [b]⟩ : Fragment)) ≠ [] := by simpa using hne
  have hjoined : Fragment.joined (message.map fun b => ⟨3, 3, [b]⟩) = message := by
    simp [Fragment.joined, List.flatMap_map]
  have hcarries := carries_joined hrecords (by simp [maxPayload])
  rw [hjoined] at hcarries
  exact ⟨_, hcarries⟩

theorem length_data_le {x : Extension} {xs : List Extension} (h : x ∈ xs) :
    x.data.length ≤ (extensionBytes xs).length := by
  obtain ⟨before, after, rfl⟩ := List.append_of_mem h
  simp only [extensionBytes, List.flatMap_append, List.flatMap_cons, List.length_append,
    Extension.bytes, length_prefixed16]
  omega

namespace ClientHello
variable {hello : ClientHello}

def body (hello : ClientHello) : Bytes :=
  hello.stem ++ prefixed16 (extensionBytes hello.extensions)

def message (hello : ClientHello) : Bytes :=
  clientHelloType :: (ofNat24 hello.body.length ++ hello.body)

theorem Fits.sentAs (h : hello.Fits) : hello.SentAs hello.message :=
  ⟨hello.body, ⟨h, _, rfl, .inr rfl⟩, rfl⟩

theorem SentAs.fits {message : Bytes} (h : hello.SentAs message) : hello.Fits := by
  obtain ⟨_, hbody, _⟩ := h
  exact hbody.1

/-- A hello is read off the front of any such records of its message. -/
theorem Fits.parse_wire (h : hello.Fits) {fs : List Fragment} (hne : fs ≠ [])
    (full : ∀ f ∈ fs, f.payload ≠ [] ∧ f.payload.length ≤ maxPayload)
    (hjoined : Fragment.joined fs = hello.message) (tail : Bytes) :
    parse (Fragment.wire fs ++ tail) = .ok ⟨hello, Fragment.wire fs, tail⟩ :=
  parse_eq_ok_iff.mpr ⟨fs, hello.message, hjoined ▸ carries_joined hne full, h.sentAs, rfl, rfl⟩

/-- There is a way to send a hello, and sent in any such way it is read as what it is. -/
def Readable (hello : ClientHello) : Prop :=
  (∃ fs message, Carries fs message ∧ hello.SentAs message) ∧
    ∀ fs message tail, Carries fs message → hello.SentAs message →
      parse (Fragment.wire fs ++ tail) = .ok ⟨hello, Fragment.wire fs, tail⟩

theorem readable_iff_fits : hello.Readable ↔ hello.Fits := by
  constructor
  · intro h
    obtain ⟨⟨_, _, _, hsent⟩, _⟩ := h
    exact hsent.fits
  · intro h
    obtain ⟨fs, hfs⟩ := exists_carries (List.cons_ne_nil _ _ : hello.message ≠ [])
    refine ⟨⟨fs, hello.message, hfs, h.sentAs⟩, ?_⟩
    intro fs message tail hcarries hsent
    exact parse_eq_ok_iff.mpr ⟨fs, message, hcarries, hsent, rfl, rfl⟩

/-- Other extensions in a hello fit if their block does. -/
theorem Fits.withExtensions (h : hello.Fits) {xs : List Extension}
    (hblock : (extensionBytes xs).length < 65536) : Fits { hello with extensions := xs } :=
  ⟨h.random, h.sessionId, h.suites, h.methods,
    fun _ hx => Nat.lt_of_le_of_lt (length_data_le hx) hblock, hblock⟩

end ClientHello

theorem fits_of_parse {raw : Bytes} {p : Parsed} (h : parse raw = .ok p) : p.hello.Fits := by
  obtain ⟨_, _, _, hsent, _⟩ := parse_eq_ok_iff.mp h
  exact hsent.fits

end Gatehouse.Hello
