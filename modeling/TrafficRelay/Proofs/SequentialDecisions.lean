import TrafficRelay.Proofs.RelayHistory

/-!
# Decisions in sequence

Readers take turns at one filter and one router.  Each frame is decided as a
whole when it is taken, so the decisions of a run are those of a single reader
that handles the same frames one at a time, which is what `Stages.Processes`
says.
-/

namespace TrafficRelay

def Occurrence.handling? : Occurrence → Option Handling
  | .handled handling => some handling
  | _ => none

theorem Router.select_policy {α : Type} (router : Router) (session : SessionKey)
    (outputs : List α) : (router.select session outputs).2.policy = router.policy := by
  unfold select
  split
  · rfl
  · split <;> rfl

theorem Router.select_broadcast {α : Type} {router : Router} (session : SessionKey)
    (outputs : List α) (broadcast : router.policy = .broadcast) :
    (router.select session outputs).1 = outputs := by
  unfold select
  split
  · rename_i none
    exact (List.isEmpty_iff.mp none).symm
  · rw [broadcast]

namespace Stages

/-- A single reader handles frames one at a time, each with what the one before
has left behind. -/
inductive Processes (outputs : Nat) : Stages → List Handling → Stages → Prop where
  | done (stages : Stages) : Processes outputs stages [] stages
  | malformed {stages last : Stages} {handling : Handling} {rest : List Handling}
      {error : HeaderError} :
      Record.decode handling.frame = .error error →
      handling.decision = .malformed error →
      Processes outputs stages rest last →
      Processes outputs stages (handling :: rest) last
  | filtered {stages last : Stages} {handling : Handling} {rest : List Handling}
      {record : Record} {filter : Filter} :
      Record.decode handling.frame = .ok record →
      stages.filter.judge handling.instant record = (.drop, filter) →
      handling.decision = .filtered →
      Processes outputs ⟨filter, stages.router⟩ rest last →
      Processes outputs stages (handling :: rest) last
  | routed {stages last : Stages} {handling : Handling} {rest : List Handling}
      {record : Record} {filter : Filter} {selected : List Nat} {router : Router} :
      Record.decode handling.frame = .ok record →
      stages.filter.judge handling.instant record = (.allow, filter) →
      stages.router.select record.session (List.range outputs) = (selected, router) →
      handling.decision = .routed selected →
      Processes outputs ⟨filter, router⟩ rest last →
      Processes outputs stages (handling :: rest) last

theorem processes_cons {outputs : Nat} {stages next last : Stages}
    {handling : Handling} {rest : List Handling}
    (decided : stages.decide outputs handling.instant handling.frame =
      (handling.decision, next))
    (others : Processes outputs next rest last) :
    Processes outputs stages (handling :: rest) last := by
  unfold decide at decided
  split at decided
  · rename_i error decoded
    obtain ⟨decision, rfl⟩ := Prod.mk.inj decided
    exact .malformed decoded decision.symm others
  · rename_i record decoded
    split at decided
    · rename_i filter judged
      obtain ⟨decision, rfl⟩ := Prod.mk.inj decided
      exact .filtered decoded judged decision.symm others
    · rename_i filter judged
      obtain ⟨decision, rfl⟩ := Prod.mk.inj decided
      exact .routed decoded judged rfl decision.symm others

/-- Under broadcast every frame that passes goes to every output. -/
theorem Processes.broadcast {outputs : Nat} {stages last : Stages}
    {handlings : List Handling} (processes : stages.Processes outputs handlings last)
    (policy : stages.router.policy = .broadcast) {handling : Handling}
    (member : handling ∈ handlings) {selected : List Nat}
    (passed : handling.decision = .routed selected) :
    selected = List.range outputs := by
  induction processes with
  | done stages => cases member
  | malformed decoded decision others induction =>
      rcases List.mem_cons.mp member with rfl | later
      · rw [decision] at passed
        cases passed
      · exact induction policy later
  | filtered decoded judged decision others induction =>
      rcases List.mem_cons.mp member with rfl | later
      · rw [decision] at passed
        cases passed
      · exact induction policy later
  | @routed stages last first rest record filter chosen router decoded judged routing
      decision others induction =>
      rcases List.mem_cons.mp member with rfl | later
      · rw [decision] at passed
        cases passed
        have all := Router.select_broadcast record.session (List.range outputs) policy
        rw [routing] at all
        exact all
      · have kept := Router.select_policy stages.router record.session (List.range outputs)
        rw [routing] at kept
        exact induction (kept.trans policy) later

end Stages

namespace Relay

variable {relay next last : Relay} {event : Event} {events : List Event}

theorem Step.outputs (step : Step relay event next) : next.outputs = relay.outputs := by
  cases step <;> simp [setReader, report_eq, decideFrame]

/-- A step decides one frame, or leaves what decisions depend on as it is. -/
theorem Step.stages (step : Step relay event next) :
    (∃ handling, relay.occurrences event = [.handled handling] ∧
      relay.stages.decide relay.outputs.length handling.instant handling.frame =
        (handling.decision, next.stages)) ∨
      (relay.occurrences event).filterMap Occurrence.handling? = [] ∧
        next.stages = relay.stages := by
  cases step with
  | @takeFrame index reader frame inlet found idle lowered read =>
      refine Or.inl ⟨⟨index, relay.clock, frame, (relay.decideFrame frame).1⟩, ?_, ?_⟩
      · simp [occurrences, found, read, taking]
      · simp [decideFrame, report_eq, setReader]
  | takeFailure found idle lowered read =>
      refine Or.inr ⟨?_, ?_⟩
      · simp [occurrences, found, read, taking, Occurrence.handling?]
      · simp [report_eq, setReader]
  | write found phase pending =>
      refine Or.inr ⟨?_, rfl⟩
      simp [occurrences, found, phase, Occurrence.handling?]
  | land found phase finished => exact Or.inr ⟨rfl, by simp [report_eq, setReader]⟩
  | leave found idle due => exact Or.inr ⟨rfl, rfl⟩
  | close found leaving => exact Or.inr ⟨rfl, rfl⟩
  | drain running raised => exact Or.inr ⟨rfl, rfl⟩
  | stop closed due => exact Or.inr ⟨rfl, rfl⟩
  | @send input item reader found accepts =>
      refine Or.inr ⟨?_, rfl⟩
      simp [occurrences, Relay.accepts, found, accepts, Occurrence.handling?]
  | sendLost refused => exact Or.inr ⟨by simp [occurrences, refused], rfl⟩
  | endInput found => exact Or.inr ⟨rfl, rfl⟩
  | endNothing missing => exact Or.inr ⟨rfl, rfl⟩
  | setSignal heard => exact Or.inr ⟨rfl, rfl⟩
  | setSignalLost unheard => exact Or.inr ⟨rfl, rfl⟩
  | dropSignal => exact Or.inr ⟨rfl, rfl⟩
  | dropReports => exact Or.inr ⟨rfl, rfl⟩
  | advance => exact Or.inr ⟨rfl, rfl⟩

theorem Steps.processes (steps : Steps relay events last) :
    relay.stages.Processes relay.outputs.length
      ((relay.history events).filterMap Occurrence.handling?) last.stages := by
  induction steps with
  | done relay => exact .done _
  | @step relay next last event events step steps induction =>
      rw [step.outputs] at induction
      rw [step.history_cons, List.filterMap_append]
      rcases step.stages with ⟨handling, happened, decided⟩ | ⟨nothing, same⟩
      · rw [happened]
        exact Stages.processes_cons decided induction
      · rw [nothing, ← same]
        exact induction

/-- The clock never goes back. -/
theorem Step.clock_le (step : Step relay event next) : relay.clock ≤ next.clock := by
  cases step with
  | takeFrame found idle lowered read => simp [decideFrame, report_eq, setReader]
  | takeFailure found idle lowered read => simp [report_eq, setReader]
  | land found phase finished => simp [report_eq, setReader]
  | advance => exact Nat.le_add_right _ _
  | _ => exact Nat.le_refl _

theorem Steps.clock_le (steps : Steps relay events last) : relay.clock ≤ last.clock := by
  induction steps with
  | done relay => exact Nat.le_refl _
  | step step steps induction => exact Nat.le_trans step.clock_le induction

/-- Frames are handled at instants that the clock goes through. -/
theorem Steps.instant_between (steps : Steps relay events last) :
    ∀ handling, .handled handling ∈ relay.history events →
      relay.clock ≤ handling.instant ∧ handling.instant ≤ last.clock := by
  induction steps with
  | done relay => exact nofun
  | step step steps induction =>
      intro handling member
      rw [step.history_cons] at member
      rcases List.mem_append.mp member with now | later
      · rw [(take_of_handled now).2]
        exact ⟨Nat.le_refl _, Nat.le_trans step.clock_le steps.clock_le⟩
      · obtain ⟨after, before⟩ := induction handling later
        exact ⟨Nat.le_trans step.clock_le after, before⟩

/-- While the clock stands still, all frames are handled at one instant. -/
theorem Steps.instant_eq (steps : Steps relay events last) (still : last.clock = relay.clock) :
    ∀ handling ∈ (relay.history events).filterMap Occurrence.handling?,
      handling.instant = relay.clock := by
  intro handling member
  obtain ⟨occurrence, happened, same⟩ := List.mem_filterMap.mp member
  cases occurrence with
  | handled other =>
      obtain rfl := Option.some.inj same
      obtain ⟨after, before⟩ := steps.instant_between _ happened
      exact Nat.le_antisymm (still ▸ before) after
  | _ => cases same

end Relay

end TrafficRelay
