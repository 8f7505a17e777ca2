import Gatehouse.Proofs.Address.Destination
import Gatehouse.Proofs.Reaction.Course
import Gatehouse.Proofs.Settings.Limits

namespace Gatehouse.Settings

/-- The field of what stands under so many layers of the one at `field`. -/
def fieldUnder (field : String) (layers : Nat) : String :=
  field ++ String.join (List.replicate layers ".then")

theorem fieldUnder_zero (field : String) : fieldUnder field 0 = field := by
  simp [fieldUnder]

theorem fieldUnder_succ (field : String) (layers : Nat) :
    fieldUnder field (layers + 1) = fieldUnder (field ++ ".then") layers := by
  simp [fieldUnder, List.replicate_succ, String.append_assoc]

namespace ReactionRule

/-- The delays of a rule, the outermost first. -/
def delays : ReactionRule → List UInt64
  | .delayed delayMs next => delayMs :: next.delays
  | _ => []

/-- What a rule asks for behind all delays. -/
def leaf : ReactionRule → ReactionRule
  | .delayed _ next => next.leaf
  | rule => rule

theorem eq_foldr_delayed (rule : ReactionRule) : rule = rule.delays.foldr delayed rule.leaf := by
  induction rule with
  | delayed delayMs next ih => exact congrArg (delayed delayMs) ih
  | _ => rfl

theorem leaf_ne_delayed (rule : ReactionRule) (delayMs : UInt64) (next : ReactionRule) :
    rule.leaf ≠ .delayed delayMs next := by
  induction rule with
  | delayed _ _ ih => exact ih
  | _ => simp [leaf]

theorem leaf_of_no_delays {rule : ReactionRule} (h : rule.delays = []) : rule.leaf = rule := by
  cases rule with
  | delayed => simp [delays] at h
  | _ => rfl

theorem beq_none_eq (rule : ReactionRule) :
    (rule == .none) = (rule.delays.isEmpty && rule.leaf == .none) := by
  cases rule <;> rfl

/-- Nothing but the leaf is ever found wrong: in the last layer over it, or in itself. -/
theorem problems_eq (rule : ReactionRule) (field : String) :
    rule.problems field =
      match rule.leaf with
      | .none => reportIf (!rule.delays.isEmpty) (fieldUnder field (rule.delays.length - 1))
          "a delayed reaction must end in alert, close or reflect"
      | .reflect destination => reportIf (!isDestination destination)
          (fieldUnder field rule.delays.length ++ ".destination") "must be host:port"
      | _ => [] := by
  induction rule generalizing field with
  | none => rfl
  | alert => rfl
  | close => rfl
  | reflect destination => simp only [problems, leaf, delays, List.length_nil, fieldUnder_zero]
  | delayed delayMs next ih =>
    rw [problems, ih, beq_none_eq, leaf, delays]
    -- The layer in question is this one if there are none below it.
    cases hbelow : next.delays with
    | nil => cases next.leaf <;> simp [reportIf, fieldUnder_zero, fieldUnder_succ]
    | cons delay below => cases next.leaf <;> simp [reportIf, fieldUnder_succ]

example : (delayed 10 (.delayed 10 .none)).problems "reaction" =
    [⟨"reaction.then", "a delayed reaction must end in alert, close or reflect"⟩] := by rfl

theorem toReaction_eq (rule : ReactionRule) :
    rule.toReaction = (rule.delays.map UInt64.toNat).foldr Reaction.delayed rule.leaf.toReaction := by
  induction rule with
  | delayed delayMs next ih => exact congrArg (Reaction.delayed delayMs.toNat) ih
  | _ => rfl

theorem innermost_toReaction (rule : ReactionRule) :
    rule.toReaction.innermost = rule.leaf.toReaction := by
  induction rule with
  | delayed _ _ ih => exact ih
  | _ => rfl

/-- What is found wrong with a rule at `reaction`, told from its layers alone. -/
structure Judged (rule : ReactionRule) : Prop where
  layers : rule = rule.delays.foldr delayed rule.leaf
  bottom : ∀ delayMs next, rule.leaf ≠ .delayed delayMs next
  deadEnd : rule.leaf = .none → rule.delays ≠ [] →
    rule.problems "reaction" = [⟨fieldUnder "reaction" (rule.delays.length - 1),
      "a delayed reaction must end in alert, close or reflect"⟩]
  nowhere : ∀ destination, rule.leaf = .reflect destination → ¬ IsHostPort destination →
    rule.problems "reaction" = [⟨fieldUnder "reaction" rule.delays.length ++ ".destination",
      "must be host:port"⟩]
  passes : (rule.leaf = .none → rule.delays = []) →
    (∀ destination, rule.leaf = .reflect destination → IsHostPort destination) →
    rule.problems "reaction" = []

/-- A reaction has the delays of a rule one by one, and does behind them what the rule says. -/
structure Carried (rule : ReactionRule) (reaction : Reaction) : Prop where
  delays : reaction = (rule.delays.map UInt64.toNat).foldr Reaction.delayed reaction.innermost
  watches : reaction.innermost = .none ↔ rule.leaf = .none
  alerts : ∀ alert, reaction.innermost = .alert alert ↔ rule.leaf = .alert alert
  closes : reaction.innermost = .close ↔ rule.leaf = .close
  reflects : ∀ destination,
    reaction.innermost = .reflect destination ↔ rule.leaf = .reflect destination

theorem judged (rule : ReactionRule) : rule.Judged := by
  refine ⟨rule.eq_foldr_delayed, rule.leaf_ne_delayed, ?_, ?_, ?_⟩
  · intro hleaf hdelays
    simp [problems_eq, hleaf, hdelays, reportIf]
  · intro destination hleaf hbad
    simp [problems_eq, hleaf, isDestination_eq_false_iff.mpr hbad, reportIf]
  · intro hnone hreflect
    rw [problems_eq]
    split
    next hleaf => simp [hnone hleaf, reportIf]
    next destination hleaf => simp [isDestination_iff.mpr (hreflect destination hleaf), reportIf]
    next => rfl

theorem carried (rule : ReactionRule) : rule.Carried rule.toReaction := by
  have hbottom := rule.leaf_ne_delayed
  refine ⟨?_, ?_, ?_, ?_, ?_⟩
  · rw [innermost_toReaction, ← toReaction_eq]
  all_goals
    rw [innermost_toReaction]
    cases hleaf : rule.leaf with
    | delayed delayMs next => exact absurd hleaf (hbottom delayMs next)
    | _ => simp [toReaction]

end ReactionRule

/-- An execution of a rule that passes decides on doing nothing only if that is the whole rule. -/
theorem none_of_reached {s : Settings} (hvalid : s.validate = .ok ()) {client : Stream.Link}
    {hello : Option Capture.Buffer} {pool : Capture.Pool} {metrics : Metrics}
    {turns : List Execution.Turn} {log : List (Execution.Turn × Stream.Outcome)} {last : Execution}
    (hplay : (Execution.start s.reaction.toReaction client hello pool metrics).play? turns =
      some (log, last))
    (hstage : last.stage = .deciding .none) : s.reaction = .none := by
  obtain ⟨-, -, -, hpasses, -⟩ := sections_eq_nil hvalid
  have hdone := ((Execution.onCourse_start _ client hello pool metrics).play hplay).done
  rw [hstage] at hdone
  have hleaf : s.reaction.leaf = .none := s.reaction.carried.watches.mp hdone.1.symm
  have hdelays : s.reaction.delays = [] := by
    apply Classical.byContradiction
    intro hsome
    rw [s.reaction.judged.deadEnd hleaf hsome] at hpasses
    exact List.cons_ne_nil _ _ hpasses
  rw [← hleaf, ReactionRule.leaf_of_no_delays hdelays]

/-- Rules of any depth are judged by their leaf and carried out as they stand, and with settings that
pass no delay ends in nothing. -/
theorem nested_rules_lead_on (s : Settings) :
    s.reaction.Judged ∧ s.reaction.Carried s.reaction.toReaction ∧
      (s.validate = .ok () → ∀ client hello pool metrics,
        (∃ turns log last, (Execution.start s.reaction.toReaction client hello pool metrics).play? turns =
            some (log, last) ∧ last.stage = .deciding .none) ↔ s.reaction = .none) := by
  refine ⟨s.reaction.judged, s.reaction.carried, ?_⟩
  intro hvalid client hello pool metrics
  constructor
  · intro hreached
    obtain ⟨turns, log, last, hplay, hstage⟩ := hreached
    exact none_of_reached hvalid hplay hstage
  · intro hnone
    rw [hnone]
    exact ⟨[], [], _, rfl, rfl⟩

end Gatehouse.Settings
