import TrafficRelay.Proofs.RoutedFrames

/-!
# The choice of outputs

`Policy.choice` tells without a router which outputs a policy picks for a session when
it is some turn.  The decisions of a run are these choices, one for every frame that
the filter allows, and the turn is the place of the frame among the allowed ones.
-/

namespace TrafficRelay

/-- The output that is reached by counting round and round, if there is any. -/
def pick (outputs number : Nat) : List Nat :=
  if outputs = 0 then [] else [number % outputs]

theorem pick_of_pos {outputs : Nat} (present : 0 < outputs) (number : Nat) :
    pick outputs number = [number % outputs] :=
  if_neg (Nat.ne_of_gt present)

theorem pairwise_pick (outputs number : Nat) : (pick outputs number).Pairwise (· < ·) := by
  unfold pick
  split <;> simp

theorem lt_of_mem_pick {outputs number output : Nat} (member : output ∈ pick outputs number) :
    output < outputs := by
  unfold pick at member
  split at member
  · cases member
  · rename_i present
    obtain rfl := List.mem_singleton.mp member
    exact Nat.mod_lt _ (Nat.pos_of_ne_zero present)

theorem length_pick (outputs number : Nat) :
    (pick outputs number).length = if outputs = 0 then 0 else 1 := by
  unfold pick
  split <;> rfl

namespace Policy

/-- The outputs that are picked among so many, in their order. -/
def choice (policy : Policy) (outputs turn : Nat) (session : SessionKey) : List Nat :=
  match policy with
  | .broadcast => List.range outputs
  | .roundRobin => pick outputs turn
  | .sessionAffinity => pick outputs session.hash.toNat

/-- How many outputs a frame is written to, if there are any. -/
def fanout (policy : Policy) (outputs : Nat) : Nat :=
  match policy with
  | .broadcast => outputs
  | .roundRobin | .sessionAffinity => 1

variable {policy : Policy} {outputs turn other : Nat} {session : SessionKey}

/-- The outputs are picked in their order. -/
theorem pairwise_choice : (policy.choice outputs turn session).Pairwise (· < ·) := by
  cases policy with
  | broadcast => exact List.pairwise_lt_range
  | roundRobin => exact pairwise_pick _ _
  | sessionAffinity => exact pairwise_pick _ _

theorem nodup_choice : (policy.choice outputs turn session).Nodup :=
  pairwise_choice.imp Nat.ne_of_lt

theorem lt_of_mem_choice {output : Nat} (member : output ∈ policy.choice outputs turn session) :
    output < outputs := by
  cases policy with
  | broadcast => exact List.mem_range.mp member
  | roundRobin => exact lt_of_mem_pick member
  | sessionAffinity => exact lt_of_mem_pick member

/-- With no outputs there is nothing to pick; else every frame goes to as many. -/
theorem length_choice :
    (policy.choice outputs turn session).length =
      if outputs = 0 then 0 else policy.fanout outputs := by
  cases policy with
  | broadcast =>
      rw [choice, List.length_range, fanout]
      split
      · rename_i absent
        exact absent
      · rfl
  | roundRobin => exact length_pick _ _
  | sessionAffinity => exact length_pick _ _

theorem fanout_pos (policy : Policy) {outputs : Nat} (present : 0 < outputs) :
    0 < policy.fanout outputs := by
  cases policy with
  | broadcast => exact present
  | roundRobin => exact Nat.one_pos
  | sessionAffinity => exact Nat.one_pos

/-- Only taking turns depends on whose turn it is. -/
theorem choice_congr (same : policy = .roundRobin → 0 < outputs → turn = other)
    (session : SessionKey) :
    policy.choice outputs turn session = policy.choice outputs other session := by
  cases policy with
  | broadcast => rfl
  | roundRobin =>
      rw [choice, choice, pick, pick]
      split
      · rfl
      · rename_i present
        rw [same rfl (Nat.pos_of_ne_zero present)]
  | sessionAffinity => rfl

end Policy

theorem Router.select_eq_choice (router : Router) (session : SessionKey) (outputs : Nat) :
    (router.select session (List.range outputs)).1 =
      router.policy.choice outputs router.turns.toNat session := by
  by_cases absent : outputs = 0
  · subst absent
    unfold Policy.choice
    cases router.policy <;> rfl
  · have present : (List.range outputs).isEmpty = false := by simp [absent]
    have bound (number : Nat) : number % outputs < outputs :=
      Nat.mod_lt number (Nat.pos_of_ne_zero absent)
    unfold select Policy.choice pick
    rw [present]
    cases router.policy with
    | broadcast => rfl
    | roundRobin => simp [absent, bound]
    | sessionAffinity => simp [absent, bound, SessionKey.boundOutput]

/-- Under session affinity the router does not move. -/
theorem Router.select_sessionAffinity {α : Type} {router : Router}
    (affinity : router.policy = .sessionAffinity) (session : SessionKey) (outputs : List α) :
    (router.select session outputs).2 = router := by
  unfold select
  split
  · rfl
  · rw [affinity]

theorem Counter.reading_toNat (counter : Counter) : counter.toNat = reading counter.toNat :=
  (Nat.mod_eq_of_lt counter.value.toNat_lt).symm

/-- Of the frames that have been taken, those that the filter allows. -/
def Assembly.allowed (assembly : Assembly) (happened : List Occurrence) :
    List (SessionKey × Bytes) :=
  assembly.stages.filter.allowed
    ((happened.filterMap Occurrence.handling?).map Handling.reading)

/-- A frame that is passed on, and the outputs that it goes to. -/
def Handling.passed? (handling : Handling) : Option (Bytes × List Nat) :=
  match handling.decision with
  | .routed outputs => some (handling.frame, outputs)
  | .malformed _ | .filtered => none

namespace Stages

/-- A frame that is passed on goes where the policy sends it. -/
theorem decide_routed {stages next : Stages} {outputs : Nat} {now : Instant}
    {frame : Bytes} {selected : List Nat}
    (decided : stages.decide outputs now frame = (.routed selected, next)) :
    ∃ session, selected =
      stages.router.policy.choice outputs stages.router.turns.toNat session := by
  unfold decide at decided
  split at decided
  · cases decided
  · rename_i record decoded
    split at decided
    · cases decided
    · cases decided
      exact ⟨record.session, Router.select_eq_choice _ _ _⟩

theorem decide_policy (stages : Stages) (outputs : Nat) (now : Instant) (frame : Bytes) :
    (stages.decide outputs now frame).2.router.policy = stages.router.policy := by
  unfold decide
  split
  · rfl
  · split
    · rfl
    · exact Router.select_policy _ _ _

/-- The frames that are passed on are those that the filter allows, and each goes to
the outputs of its turn. -/
theorem Processes.passed {outputs : Nat} {stages last : Stages} {handlings : List Handling}
    (processes : stages.Processes outputs handlings last) {place : Nat}
    (counted : stages.router.policy = .roundRobin → 0 < outputs →
      stages.router.turns.toNat = Counter.reading place) :
    handlings.filterMap Handling.passed? =
      ((stages.filter.allowed (handlings.map Handling.reading)).zipIdx place).map
        fun ((session, frame), place) =>
          (frame, stages.router.policy.choice outputs (Counter.reading place) session) := by
  induction processes generalizing place with
  | done stages => rfl
  | malformed decoded decision others induction =>
      simp only [List.filterMap_cons, Handling.passed?, decision, List.map_cons,
        Handling.reading, Filter.allowed, decoded]
      exact induction counted
  | filtered decoded judged decision others induction =>
      simp only [List.filterMap_cons, Handling.passed?, decision, List.map_cons,
        Handling.reading, Filter.allowed, decoded, judged]
      exact induction counted
  | @routed stages last handling rest record filter selected router decoded judged routing
      decision others induction =>
      have chosen := Router.select_eq_choice stages.router record.session outputs
      have kept := Router.select_policy stages.router record.session (List.range outputs)
      rw [routing] at chosen kept
      have turned : router.policy = .roundRobin → 0 < outputs →
          router.turns.toNat = Counter.reading (place + 1) := by
        intro policy present
        have roundRobin := kept.symm.trans policy
        have moved := Router.select_turns record.session present roundRobin
        rw [routing] at moved
        rw [moved]
        exact Counter.toNat_increment (counted roundRobin present)
      have later := induction turned
      rw [kept] at later
      simp only [List.filterMap_cons, Handling.passed?, decision, List.map_cons,
        Handling.reading, Filter.allowed, decoded, judged, List.zipIdx_cons] at later ⊢
      rw [later, ← Policy.choice_congr counted]
      exact congrArg (fun chosen => (handling.frame, chosen) :: _) chosen

theorem Processes.length_passed {outputs : Nat} {stages last : Stages}
    {handlings : List Handling} (processes : stages.Processes outputs handlings last) :
    (handlings.filterMap Handling.passed?).length =
      (stages.filter.allowed (handlings.map Handling.reading)).length := by
  rw [processes.passed fun _ _ => stages.router.turns.reading_toNat, List.length_map,
    List.length_zipIdx]

/-- A frame that is passed on goes to as many outputs as the policy demands. -/
theorem Processes.length_selected {outputs : Nat} {stages last : Stages}
    {handlings : List Handling} (processes : stages.Processes outputs handlings last)
    {handling : Handling} (member : handling ∈ handlings) {selected : List Nat}
    (routed : handling.decision = .routed selected) :
    selected.length = if outputs = 0 then 0 else stages.router.policy.fanout outputs := by
  have passed : handling.passed? = some (handling.frame, selected) := by
    rw [Handling.passed?, routed]
  have listed := List.mem_filterMap.mpr ⟨handling, member, passed⟩
  rw [processes.passed fun _ _ => stages.router.turns.reading_toNat] at listed
  obtain ⟨⟨⟨session, frame⟩, place⟩, -, same⟩ := List.mem_map.mp listed
  obtain ⟨-, rfl⟩ := Prod.mk.inj same
  exact Policy.length_choice

/-- Under session affinity no turn is ever taken. -/
theorem Processes.router_eq {outputs : Nat} {stages last : Stages}
    {handlings : List Handling} (processes : stages.Processes outputs handlings last)
    (affinity : stages.router.policy = .sessionAffinity) : last.router = stages.router := by
  induction processes with
  | done stages => rfl
  | malformed decoded decision others induction => exact induction affinity
  | filtered decoded judged decision others induction => exact induction affinity
  | @routed stages last handling rest record filter selected router decoded judged routing
      decision others induction =>
      have still := Router.select_sessionAffinity affinity record.session (List.range outputs)
      rw [routing] at still
      obtain rfl : router = stages.router := still
      exact induction affinity

end Stages

end TrafficRelay
