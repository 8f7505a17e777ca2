import Gatehouse.Proofs.Admission
import Gatehouse.Proofs.Hello.ServerName
import Mathlib.Data.List.Forall2

namespace Gatehouse
open Hello

/-- Streams that start with a hello each, the two with the same first ticket or both without one. -/
def Hello.SameTicket (raw raw' : Bytes) : Prop :=
  ∃ p p', parse raw = .ok p ∧ parse raw' = .ok p' ∧
    ∀ ticket, p.hello.FirstTicket ticket ↔ p'.hello.FirstTicket ticket

theorem Hello.ClientHello.firstTicket_congr_iff {hello hello' : ClientHello} :
    (∀ ticket, hello.FirstTicket ticket ↔ hello'.FirstTicket ticket) ↔
      hello.extension? 35 = hello'.extension? 35 := by
  have hfirst (hello : ClientHello) (ticket : Bytes) :
      hello.extension? 35 = some ticket ↔ hello.FirstTicket ticket := extension?_eq_some_iff
  rw [Option.ext_iff]
  simp only [hfirst]

section SameTicket
variable {raw raw' : Bytes} (h : SameTicket raw raw')
include h

theorem Hello.SameTicket.ticketFault?_eq (keys : Ticket.KeyList) :
    ticketFault? keys raw = ticketFault? keys raw' := by
  obtain ⟨p, p', hp, hp', hsame⟩ := h
  have hticket := ClientHello.firstTicket_congr_iff.mp hsame
  have hoffered : p.hello.offersTicket = p'.hello.offersTicket := congrArg Option.isSome hticket
  have hsent : p.hello.sessionTicket = p'.hello.sessionTicket := congrArg (·.getD []) hticket
  unfold ticketFault?
  rw [hp, hp']
  dsimp only
  rw [hoffered, hsent]

theorem Hello.SameTicket.judge_eq (doorman : Doorman) (keys : Ticket.KeyList) (peer : Ip) :
    doorman.judge keys peer raw = doorman.judge keys peer raw' := by
  simp only [Doorman.judge, h.ticketFault?_eq keys]

end SameTicket

namespace Watch

/-- The same action, but for a hello another one with the same ticket. -/
inductive Action.Alike : Action → Action → Prop
  | hello (peer : Ip) {raw raw' : Bytes} (same : SameTicket raw raw') :
      Alike (.hello peer raw) (.hello peer raw')
  | refl (action : Action) : Alike action action

theorem act_congr {action action' : Action} (h : action.Alike action') (watch : Watch) :
    watch.act action = watch.act action' := by
  cases h with
  | hello peer same => simp only [act, same.judge_eq]
  | refl => rfl

theorem run_congr {actions actions' : List Action} (h : List.Forall₂ Action.Alike actions actions')
    (watch : Watch) : watch.run actions = watch.run actions' := by
  induction h generalizing watch with
  | nil => rfl
  | cons halike _ ih => simp only [run, act_congr halike, ih]

end Watch

/-- A hello that can be read asks for exactly the host that its first server name extension names, and
for none if that names none or there is none; with whatever extensions instead, it can be read as well.
Who is let through, why not, and what is reported depend on the first ticket alone, for one hello and
over any run with rotations in between. -/
theorem host_names_are_exact_and_harmless :
    (∀ raw p, parse raw = .ok p →
      (∀ host, p.hello.serverName? = some host ↔ p.hello.Asks host) ∧
      (p.hello.serverName? = none ↔ ∀ host, ¬ p.hello.Asks host) ∧
      ∀ others, (extensionBytes others).length < 65536 →
        ClientHello.Readable { p.hello with extensions := others }) ∧
    (∀ raw raw', SameTicket raw raw' → ∀ (doorman : Doorman) keys peer,
      doorman.judge keys peer raw = doorman.judge keys peer raw') ∧
    ∀ actions actions', List.Forall₂ Watch.Action.Alike actions actions' →
      ∀ watch : Watch, watch.run actions = watch.run actions' := by
  refine ⟨?_, fun _ _ h => h.judge_eq, fun _ _ => Watch.run_congr⟩
  intro raw p h
  refine ⟨fun _ => ClientHello.serverName?_eq_some_iff, ClientHello.serverName?_eq_none_iff, ?_⟩
  intro others hblock
  exact ClientHello.readable_iff_fits.mpr ((fits_of_parse h).withExtensions hblock)

namespace Hello

/-- The name of the host comes second in the list, and there is something behind the list. -/
def named : ClientHello where
  legacyVersion := 0x0303
  random := List.replicate 32 0x42
  sessionId := []
  cipherSuites := [0xc02f, 0xc030]
  compressionMethods := [0]
  extensions := [⟨0, [0, 8, 1, 0, 1, 120, 0, 0, 1, 97, 7]⟩, ⟨35, [1, 2, 3]⟩]

/-- The first name of the host's type is no text, and the one behind it is not looked at. -/
def nameless : ClientHello :=
  { named with
    cipherSuites := [0x1301]
    extensions :=
      [⟨35, [1, 2, 3]⟩, ⟨0, [0, 8, 0, 0, 1, 0xff, 0, 0, 1, 97]⟩, ⟨10, [5]⟩, ⟨35, []⟩] }

theorem fits_named : named.Fits :=
  ⟨rfl, by decide, by decide, by decide, by decide, by decide⟩

theorem fits_nameless : nameless.Fits :=
  ⟨rfl, by decide, by decide, by decide, by decide, by decide⟩

end Hello

/-- One is sent in a single record, the other in two and with something behind them. -/
theorem host_names_are_exact_and_harmless_for_two :
    let whole : List Fragment := [⟨3, 1, named.message⟩]
    let cut : List Fragment := [⟨3, 1, nameless.message.take 20⟩, ⟨3, 3, nameless.message.drop 20⟩]
    let raw := Fragment.wire whole ++ []
    let raw' := Fragment.wire cut ++ [23, 3, 3]
    parse raw = .ok ⟨named, Fragment.wire whole, []⟩ ∧ named.serverName? = some "a" ∧
    parse raw' = .ok ⟨nameless, Fragment.wire cut, [23, 3, 3]⟩ ∧ (∀ host, ¬ nameless.Asks host) ∧
    (∀ (doorman : Doorman) keys peer,
      doorman.judge keys peer raw = doorman.judge keys peer raw') ∧
    ∀ (watch : Watch) peer fresh,
      watch.run [.hello peer raw, .rotate fresh] = watch.run [.hello peer raw', .rotate fresh] := by
  intro whole cut raw raw'
  have hwhole : parse raw = .ok ⟨named, Fragment.wire whole, []⟩ :=
    fits_named.parse_wire (List.cons_ne_nil _ _) (by decide) (List.append_nil _) []
  have hcut : parse raw' = .ok ⟨nameless, Fragment.wire cut, [23, 3, 3]⟩ :=
    fits_nameless.parse_wire (List.cons_ne_nil _ _) (by decide) (by decide) [23, 3, 3]
  have hsame : SameTicket raw raw' :=
    ⟨_, _, hwhole, hcut, ClientHello.firstTicket_congr_iff.mpr (by decide)⟩
  obtain ⟨hread, hjudge, hrun⟩ := host_names_are_exact_and_harmless
  have hhost : Bytes.ofString "a" = [97] := by decide +kernel
  have hasks : named.Asks "a" := by
    refine ⟨[], _, _, rfl, nofun, [1, 0, 1, 120, 0, 0, 1, 97], [7], by decide, rfl, ?_⟩
    refine ⟨[⟨1, [120]⟩], [], by decide, ?_, ?_⟩ <;> rw [hhost] <;> decide
  have hnone : nameless.serverName? = none := by decide +kernel
  refine ⟨hwhole, ((hread raw _ hwhole).1 "a").mpr hasks, hcut, (hread raw' _ hcut).2.1.mp hnone,
    hjudge raw raw' hsame, ?_⟩
  intro watch peer fresh
  exact hrun _ _ (.cons (.hello peer hsame) (.cons (.refl _) .nil)) watch

end Gatehouse
