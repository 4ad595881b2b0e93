import Mathlib.Algebra.Group.Nat.Defs
import Mathlib.Data.List.Basic
import TrafficRelay.Proofs.Delivery

/-!
# The share of an output

The frames that a single reader passes on to an output are those that decode,
that the filter allows and that the policy sends to this output.  `Filter.allowed`
and `Policy.share` say so without a router: under round robin the place of a
frame among the allowed ones decides, as far as the counter can hold it.
-/

namespace TrafficRelay

/-- What a counter shows after so many increments. -/
def Counter.reading (increments : Nat) : Nat := increments % 2 ^ 64

theorem Counter.toNat_increment {counter : Counter} {increments : Nat}
    (counted : counter.toNat = reading increments) :
    counter.increment.toNat = reading (increments + 1) := by
  unfold toNat reading at counted
  simp only [increment, add, toNat, reading, UInt64.toNat_add, counted]
  exact Nat.mod_add_mod increments (2 ^ 64) 1

/-- The allowed ones among frames that are judged in order, each at its instant,
with their sessions. -/
def Filter.allowed (filter : Filter) : List (Instant × Bytes) → List (SessionKey × Bytes)
  | [] => []
  | (now, frame) :: rest =>
      match Record.decode frame with
      | .error _ => filter.allowed rest
      | .ok record =>
          match filter.judge now record with
          | (.drop, filter) => filter.allowed rest
          | (.allow, filter) => (record.session, frame) :: filter.allowed rest

theorem Filter.length_allowed_le (filter : Filter) (frames : List (Instant × Bytes)) :
    (filter.allowed frames).length ≤ frames.length := by
  induction frames generalizing filter with
  | nil => exact Nat.le_refl 0
  | cons entry frames induction =>
      rw [allowed, List.length_cons]
      split
      · exact Nat.le_succ_of_le (induction filter)
      · split
        · exact Nat.le_succ_of_le (induction _)
        · rw [List.length_cons]
          exact Nat.succ_le_succ (induction _)

namespace Policy

/-- Whether a policy sends a frame of this session to an output when it is this
turn. -/
def sendsTo (policy : Policy) (outputs output turn : Nat) (session : SessionKey) : Bool :=
  match policy with
  | .broadcast => true
  | .roundRobin => turn % outputs = output
  | .sessionAffinity => session.boundOutput outputs = output

/-- Only taking turns depends on whose turn it is. -/
theorem sendsTo_congr {policy : Policy} {turn other : Nat}
    (same : policy = .roundRobin → turn = other) (outputs output : Nat)
    (session : SessionKey) :
    policy.sendsTo outputs output turn session =
      policy.sendsTo outputs output other session := by
  cases policy with
  | broadcast => rfl
  | roundRobin => rw [same rfl]
  | sessionAffinity => rfl

/-- The frames among the allowed ones that a policy sends to an output, where
`turns` tells the turn of each place. -/
def share (policy : Policy) (outputs output : Nat) (turns : Nat → Nat)
    (allowed : List (SessionKey × Bytes)) : List Bytes :=
  allowed.zipIdx.filterMap fun ((session, frame), place) =>
    if policy.sendsTo outputs output (turns place) session then some frame else none

/-- As long as the counter has not wrapped, every frame's turn is its place. -/
theorem share_reading {policy : Policy} {outputs output : Nat}
    {allowed : List (SessionKey × Bytes)} (few : allowed.length ≤ 2 ^ 64) :
    policy.share outputs output Counter.reading allowed =
      policy.share outputs output id allowed := by
  apply List.filterMap_congr
  rintro ⟨⟨session, frame⟩, place⟩ member
  have small : place < 2 ^ 64 :=
    Nat.lt_of_lt_of_le (List.snd_lt_of_mem_zipIdx member) (by simpa using few)
  simp only [Counter.reading, Nat.mod_eq_of_lt small, id]

end Policy

namespace Router

theorem contains_select (router : Router) (session : SessionKey) {outputs output : Nat}
    (inRange : output < outputs) :
    (router.select session (List.range outputs)).1.contains output =
      router.policy.sendsTo outputs output router.turns.toNat session := by
  have positive : 0 < outputs := Nat.lt_of_le_of_lt (Nat.zero_le output) inRange
  have nonempty : (List.range outputs).isEmpty = false := by
    simp [Nat.ne_of_gt positive]
  unfold select Policy.sendsTo
  rw [nonempty, List.length_range]
  cases router.policy with
  | broadcast => simp [inRange]
  | roundRobin =>
      have turn := Nat.mod_lt router.turns.toNat positive
      simp [turn, eq_comm]
  | sessionAffinity =>
      have bound : session.boundOutput outputs < outputs := Nat.mod_lt _ positive
      simp [bound, eq_comm]

/-- A choice in turn takes the output that the counter points at and moves it on. -/
theorem select_roundRobin {α : Type} {router : Router} (policy : router.policy = .roundRobin)
    (session : SessionKey) {outputs : List α} (present : outputs ≠ []) :
    router.select session outputs =
      (outputs[router.turns.toNat % outputs.length]?.toList,
        { router with turns := router.turns.increment }) := by
  have nonempty : outputs.isEmpty = false := List.isEmpty_eq_false_iff.mpr present
  rw [select, nonempty, policy]
  rfl

theorem select_turns {router : Router} (session : SessionKey) {outputs : Nat}
    (positive : 0 < outputs) (policy : router.policy = .roundRobin) :
    (router.select session (List.range outputs)).2.turns = router.turns.increment := by
  have present : List.range outputs ≠ [] := by
    simp [Nat.ne_of_gt positive]
  rw [select_roundRobin policy session present]

end Router

/-- The frame of a handling, if it is routed to an output. -/
def Handling.routed? (output : Nat) (handling : Handling) : Option Bytes :=
  if handling.decision.reaches output then some handling.frame else none

theorem Handling.mem_of_routed? {output : Nat} {handlings : List Handling} {frame : Bytes}
    (member : frame ∈ handlings.filterMap (Handling.routed? output)) :
    frame ∈ handlings.map Handling.frame := by
  obtain ⟨handling, listed, passed⟩ := List.mem_filterMap.mp member
  unfold routed? at passed
  split at passed
  · obtain rfl := Option.some.inj passed
    exact List.mem_map_of_mem listed
  · cases passed

/-- When and what a reader has taken. -/
def Handling.reading (handling : Handling) : Instant × Bytes :=
  (handling.instant, handling.frame)

namespace Stages

theorem Processes.routed_from {outputs output : Nat} {stages last : Stages}
    {handlings : List Handling} (processes : stages.Processes outputs handlings last)
    (inRange : output < outputs) {place : Nat}
    (counted : stages.router.policy = .roundRobin →
      stages.router.turns.toNat = Counter.reading place) :
    handlings.filterMap (Handling.routed? output) =
      ((stages.filter.allowed (handlings.map Handling.reading)).zipIdx place).filterMap
        fun ((session, frame), place) =>
          if stages.router.policy.sendsTo outputs output (Counter.reading place) session
          then some frame else none := by
  induction processes generalizing place with
  | done stages => rfl
  | @malformed stages last handling rest error decoded decision others induction =>
      have here : Handling.routed? output handling = none := by
        simp [Handling.routed?, decision, Decision.reaches]
      simp only [List.filterMap_cons, here, List.map_cons, Handling.reading, Filter.allowed,
        decoded]
      exact induction counted
  | @filtered stages last handling rest record filter decoded judged decision others
      induction =>
      have here : Handling.routed? output handling = none := by
        simp [Handling.routed?, decision, Decision.reaches]
      simp only [List.filterMap_cons, here, List.map_cons, Handling.reading, Filter.allowed,
        decoded, judged]
      exact induction counted
  | @routed stages last handling rest record filter selected router decoded judged routing
      decision others induction =>
      have sent := Router.contains_select stages.router record.session inRange
      have kept := Router.select_policy stages.router record.session (List.range outputs)
      rw [routing] at sent kept
      have turned : router.policy = .roundRobin →
          router.turns.toNat = Counter.reading (place + 1) := by
        intro policy
        have roundRobin := kept.symm.trans policy
        have positive : 0 < outputs := Nat.lt_of_le_of_lt (Nat.zero_le output) inRange
        have moved := Router.select_turns record.session positive roundRobin
        rw [routing] at moved
        rw [moved]
        exact Counter.toNat_increment (counted roundRobin)
      have here : Handling.routed? output handling =
          if stages.router.policy.sendsTo outputs output stages.router.turns.toNat
            record.session then some handling.frame else none := by
        simp only [Handling.routed?, decision, Decision.reaches, sent]
      have rest := induction turned
      rw [kept] at rest
      rw [List.filterMap_cons, here, Policy.sendsTo_congr counted, rest]
      simp only [List.map_cons, Handling.reading, Filter.allowed, decoded, judged,
        List.zipIdx_cons, List.filterMap_cons]

/-- An output gets its share of what the filter allows. -/
theorem Processes.routed_eq_share {outputs output : Nat} {filter : Filter} {policy : Policy}
    {last : Stages} {handlings : List Handling}
    (processes : Processes outputs ⟨filter, .ofPolicy policy⟩ handlings last)
    (inRange : output < outputs) :
    handlings.filterMap (Handling.routed? output) =
      policy.share outputs output Counter.reading
        (filter.allowed (handlings.map Handling.reading)) :=
  processes.routed_from inRange fun _ => rfl

end Stages

namespace Occurrence

/-- What is routed to an output, seen from what has happened and from what has been
handled. -/
theorem routed?_eq (output : Nat) (past : List Occurrence) :
    (past.filterMap (Occurrence.routed? output)).map Prod.snd =
      (past.filterMap Occurrence.handling?).filterMap (Handling.routed? output) := by
  rw [List.map_filterMap, List.filterMap_filterMap]
  apply List.filterMap_congr
  intro occurrence member
  cases occurrence with
  | handled handling =>
      cases reached : handling.decision.reaches output <;>
        simp [routed?, handling?, Handling.routed?, reached]
  | _ => rfl

/-- Where a single reader takes frames only, it handles what it takes. -/
theorem handled_frames {past : List Occurrence} {frames : List Bytes}
    (single : ∀ occurrence ∈ past, occurrence.reader = 0)
    (taken : past.filterMap (Occurrence.taken? 0) = frames.map Item.frame) :
    (past.filterMap Occurrence.handling?).map Handling.frame = frames := by
  induction past generalizing frames with
  | nil => exact (List.map_eq_nil_iff.mp taken.symm).symm
  | cons occurrence past induction =>
      have others := fun other member => single other (List.mem_cons_of_mem occurrence member)
      have here := single occurrence List.mem_cons_self
      cases occurrence with
      | handled handling =>
          have own : handling.reader = 0 := here
          simp only [List.filterMap_cons, taken?, own, if_true] at taken
          cases frames with
          | nil => cases taken
          | cons frame frames =>
              obtain ⟨same, rest⟩ := List.cons.inj taken
              cases same
              simp only [List.filterMap_cons, handling?, List.map_cons, induction others rest]
      | readFailed reader error =>
          have own : reader = 0 := here
          simp only [List.filterMap_cons, taken?, own, if_true] at taken
          cases frames with
          | nil => cases taken
          | cons frame frames => cases (List.cons.inj taken).1
      | offered reader target frame refusal => exact induction others taken
      | queued input item => exact induction others taken

end Occurrence

end TrafficRelay
