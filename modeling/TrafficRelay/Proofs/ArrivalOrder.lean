import TrafficRelay.Proofs.SessionRest
import TrafficRelay.Proofs.TreeFiles
import TrafficRelay.Proofs.VerdictCounts

/-!
# The order of arrivals

Readers share the filter, the router and the tally, and take turns in any order.  Let two
runs read the same inputs to their ends, while the clock stands still and the records of
each session come from one input.  Then each reader finds the same verdicts in both runs,
and everything that depends on the verdicts alone is the same: what remains on record, the
counters, and what the outputs are offered, except that under round robin the order of
arrivals decides which frames an output gets, but not how many.
-/

namespace TrafficRelay

namespace Occurrence

/-- An item that is taken, with the reader that takes it. -/
def taking? : Occurrence → Option (Nat × Item)
  | .handled handling => some (handling.reader, .frame handling.frame)
  | .readFailed reader error => some (reader, .failure error)
  | .offered _ _ _ _ | .queued _ _ => none

theorem filter_taking (input : Nat) (happened : List Occurrence) :
    (happened.filterMap taking?).filter (fun entry => entry.1 = input) =
      (happened.filterMap (taken? input)).map (Prod.mk input) := by
  rw [List.filter_filterMap, List.map_filterMap]
  apply List.filterMap_congr
  intro occurrence _
  cases occurrence with
  | handled handling =>
      by_cases own : handling.reader = input <;> simp [taking?, taken?, Option.filter_some, own]
  | readFailed reader error =>
      by_cases own : reader = input <;> simp [taking?, taken?, Option.filter_some, own]
  | offered reader output frame refusal => rfl
  | queued target item => rfl

/-- The frame that is taken, if the item is one. -/
def takenFrame? : Nat × Item → Option (Nat × Bytes)
  | (reader, .frame bytes) => some (reader, bytes)
  | (_, .failure _) => none

/-- The reader that is stopped, if the item is an error. -/
def takenFailure? : Nat × Item → Option Nat
  | (_, .frame _) => none
  | (reader, .failure _) => some reader

theorem taken_examined (happened : List Occurrence) :
    (examinations happened).map Examined.taken =
      (happened.filterMap taking?).filterMap takenFrame? := by
  rw [examinations, List.map_map, List.map_filterMap, List.filterMap_filterMap]
  apply List.filterMap_congr
  intro occurrence _
  cases occurrence <;> rfl

theorem failedReader?_eq (happened : List Occurrence) :
    happened.filterMap failedReader? =
      (happened.filterMap taking?).filterMap takenFailure? := by
  rw [List.filterMap_filterMap]
  apply List.filterMap_congr
  intro occurrence _
  cases occurrence <;> rfl

section

variable {happened other : List Occurrence}
  (same : ∀ input, happened.filterMap (taken? input) = other.filterMap (taken? input))

include same

/-- Items that each reader takes in one order, whatever the order of the readers' turns. -/
theorem taking_alike :
    AlikeBy Prod.fst (happened.filterMap taking?) (other.filterMap taking?) := by
  intro input
  rw [filter_taking, filter_taking, same]

theorem taken_alike :
    AlikeBy Prod.fst ((examinations happened).map Examined.taken)
      ((examinations other).map Examined.taken) := by
  rw [taken_examined, taken_examined]
  apply (taking_alike same).filterMap
  rintro ⟨reader, bytes | error⟩ taken picked
  · rw [← Option.some.inj picked]
  · cases picked

theorem failedReader?_perm :
    (happened.filterMap failedReader?).Perm (other.filterMap failedReader?) := by
  rw [failedReader?_eq, failedReader?_eq]
  exact (taking_alike same).perm.filterMap _

end

/-- The frames of records that are taken come from the items of the inputs. -/
theorem atHome_of_items {happened : List Occurrence} {items : Nat → List Item}
    {home : SessionKey → Nat}
    (taken : ∀ input, happened.filterMap (taken? input) = items input)
    (kept : ∀ input frame record, .frame frame ∈ items input →
      Record.decode frame = .ok record → home record.session = input) :
    AtHome home ((examinations happened).map Examined.taken) := by
  intro entry member record decoded
  rw [taken_examined] at member
  obtain ⟨⟨reader, item⟩, taking, picked⟩ := List.mem_filterMap.mp member
  have own : (reader, item) ∈ (happened.filterMap taking?).filter fun entry => entry.1 = reader :=
    List.mem_filter.mpr ⟨taking, decide_eq_true rfl⟩
  rw [filter_taking, taken] at own
  have listed : item ∈ items reader := by simpa using own
  cases item with
  | frame bytes =>
      obtain rfl := Option.some.inj picked
      exact kept reader bytes record listed decoded
  | failure error => cases picked

end Occurrence

/-- Where there is no reader, nothing is taken. -/
theorem Relay.Steps.taken_eq_nil {relay last : Relay} {events : List Event}
    (steps : Relay.Steps relay events last) {input : Nat}
    (beyond : relay.readers.length ≤ input) :
    (relay.history events).filterMap (Occurrence.taken? input) = [] := by
  rw [List.filterMap_eq_nil_iff]
  intro occurrence member
  have different : occurrence.reader ≠ input :=
    Nat.ne_of_lt (Nat.lt_of_lt_of_le (steps.reader_lt occurrence member) beyond)
  cases occurrence with
  | handled handling => exact if_neg different
  | readFailed reader error => exact if_neg different
  | offered reader output frame refusal => rfl
  | queued target item => rfl

/-- All records of one session come from one input. -/
def SessionsApart (items : Nat → List Item) : Prop :=
  ∃ home : SessionKey → Nat, ∀ input frame record, .frame frame ∈ items input →
    Record.decode frame = .ok record → home record.session = input

/-- A run that reads every input to its end while the clock stands still: `items` is what
an input yields until it ends or fails. -/
structure Relay.Exhausts (launched : Relay) (items : Nat → List Item) (events : List Event)
    (last : Relay) : Prop where
  ran : launched.run? events = some last
  still : last.clock = launched.clock
  taken (input : Nat) :
    (launched.history events).filterMap (Occurrence.taken? input) = items input
  closed : last.allClosed = true

/-- How two runs compare that read the same inputs to their ends. -/
structure Assembly.Agrees (assembly : Assembly) (happened other : List Occurrence)
    (last otherLast : Relay) : Prop where
  /-- Every frame is given the same verdict. -/
  verdicts : AlikeBy Examined.reader (examinations happened) (examinations other)
  remembered : last.stages.filter.table.entries.Perm otherLast.stages.filter.table.entries
  tally :
    otherLast.tally =
      { last.tally with
        writes := otherLast.tally.writes
        writeFailures := otherLast.tally.writeFailures }
  writes :
    otherLast.tally.writes.value + otherLast.tally.writeFailures.value =
      last.tally.writes.value + last.tally.writeFailures.value
  /-- Without turns, every output is offered the same frames, and those of each input in
  the same order. -/
  offered :
    assembly.stages.router.policy ≠ .roundRobin → ∀ output,
      AlikeBy Prod.fst (happened.filterMap (Occurrence.offer? output))
          (other.filterMap (Occurrence.offer? output)) ∧
        ((happened.filterMap (Occurrence.offer? output)).map Prod.snd).Perm
          ((other.filterMap (Occurrence.offer? output)).map Prod.snd)
  offered_length (output : Nat) :
    (happened.filterMap (Occurrence.offer? output)).length =
      (other.filterMap (Occurrence.offer? output)).length

/-- How two such runs compare further, if the writes of a frame to an output end in one way. -/
structure Assembly.AgreesOnWrites (assembly : Assembly) (happened other : List Occurrence)
    (last otherLast : Relay) : Prop where
  tally : otherLast.tally = last.tally
  accepted :
    assembly.stages.router.policy ≠ .roundRobin → ∀ output,
      AlikeBy Prod.fst (happened.filterMap (Occurrence.accepted? output))
          (other.filterMap (Occurrence.accepted? output)) ∧
        ((happened.filterMap (Occurrence.accepted? output)).map Prod.snd).Perm
          ((other.filterMap (Occurrence.accepted? output)).map Prod.snd)
  accepted_length (output : Nat) :
    (happened.filterMap (Occurrence.accepted? output)).length =
      (other.filterMap (Occurrence.accepted? output)).length

namespace Relay

variable {assembly : Assembly} {signal : Signal} {now : Instant} {events others : List Event}
  {last otherLast : Relay}

section

variable (steps : Steps (assembly.launch signal now) events last)
  (otherSteps : Steps (assembly.launch signal now) others otherLast)
  (landed : last.Quiet) (otherLanded : otherLast.Quiet)
  (verdicts : AlikeBy Examined.reader (examinations ((assembly.launch signal now).history events))
    (examinations ((assembly.launch signal now).history others)))

include steps otherSteps verdicts

theorem tally_eq_of_verdicts
    (failed : (((assembly.launch signal now).history events).filterMap
        Occurrence.failedReader?).Perm
      (((assembly.launch signal now).history others).filterMap Occurrence.failedReader?))
    (closed : last.allClosed = true) (otherClosed : otherLast.allClosed = true) :
    otherLast.tally =
      { last.tally with
        writes := otherLast.tally.writes
        writeFailures := otherLast.tally.writeFailures } := by
  rw [otherSteps.examined_tally, steps.examined_tally, verdicts.perm.length_eq,
    verdictCount_perm verdicts.perm, verdictCount_perm verdicts.perm,
    verdictCount_perm verdicts.perm, failed.length_eq,
    steps.closedReaders_of_allClosed closed, otherSteps.closedReaders_of_allClosed otherClosed]

include landed otherLanded

theorem offered_alike (fixed : assembly.stages.router.policy ≠ .roundRobin) (output : Nat) :
    AlikeBy Prod.fst
      (((assembly.launch signal now).history events).filterMap (Occurrence.offer? output))
      (((assembly.launch signal now).history others).filterMap (Occurrence.offer? output)) := by
  have quiet := launch_quiet assembly signal now
  have here := steps.routed_alike quiet output
  have there := otherSteps.routed_alike quiet output
  rw [landed.awaiting_eq_nil, List.append_nil, steps.routed_eq fixed] at here
  rw [otherLanded.awaiting_eq_nil, List.append_nil, otherSteps.routed_eq fixed] at there
  refine here.trans (AlikeBy.trans ?_ there.symm)
  apply verdicts.filterMap
  intro examined entry same
  split at same
  · rw [← Option.some.inj same]
    rfl
  · cases same

theorem offered_length (output : Nat) :
    (((assembly.launch signal now).history events).filterMap (Occurrence.offer? output)).length =
      (((assembly.launch signal now).history others).filterMap
        (Occurrence.offer? output)).length := by
  by_cases turns : assembly.stages.router.policy = .roundRobin
  · have quiet := launch_quiet assembly signal now
    rw [steps.length_offered quiet landed turns,
      otherSteps.length_offered quiet otherLanded turns, verdictCount_perm verdicts.perm]
  · exact (offered_alike steps otherSteps landed otherLanded verdicts turns output).perm.length_eq

theorem settled_eq :
    ((assembly.launch signal now).settled others).countP Write.isAccepted +
        ((assembly.launch signal now).settled others).countP Write.isRefused =
      ((assembly.launch signal now).settled events).countP Write.isAccepted +
        ((assembly.launch signal now).settled events).countP Write.isRefused := by
  rw [steps.examined_settled landed, otherSteps.examined_settled otherLanded,
    verdictCount_perm verdicts.perm]

section

variable {outcome : Nat → Bytes → Option IoError}
  (ends : WritesEnd outcome ((assembly.launch signal now).history events))
  (otherEnds : WritesEnd outcome ((assembly.launch signal now).history others))

include ends otherEnds

theorem accepted_alike (fixed : assembly.stages.router.policy ≠ .roundRobin) (output : Nat) :
    AlikeBy Prod.fst
      (((assembly.launch signal now).history events).filterMap (Occurrence.accepted? output))
      (((assembly.launch signal now).history others).filterMap
        (Occurrence.accepted? output)) := by
  rw [ends.accepted_eq, otherEnds.accepted_eq]
  exact (offered_alike steps otherSteps landed otherLanded verdicts fixed output).filter _

theorem accepted_length
    (blind : assembly.stages.router.policy = .roundRobin →
      ∀ output frame other, outcome output frame = outcome output other) (output : Nat) :
    (((assembly.launch signal now).history events).filterMap
        (Occurrence.accepted? output)).length =
      (((assembly.launch signal now).history others).filterMap
        (Occurrence.accepted? output)).length := by
  by_cases turns : assembly.stages.router.policy = .roundRobin
  · have offered := offered_length steps otherSteps landed otherLanded verdicts output
    have constant (entry : Nat × Bytes) :
        (outcome output entry.2).isNone = (outcome output []).isNone := by
      rw [blind turns output entry.2 []]
    rw [ends.accepted_eq, otherEnds.accepted_eq]
    simp only [constant]
    cases (outcome output []).isNone <;> simp [offered]
  · exact (accepted_alike steps otherSteps landed otherLanded verdicts ends otherEnds turns
      output).perm.length_eq

end

end

namespace Exhausts

variable {items : Nat → List Item} {whitelist : Whitelist} {timeToLive : Duration}
  (exhausts : (assembly.launch signal now).Exhausts items events last)
  (otherExhausts : (assembly.launch signal now).Exhausts items others otherLast)

include exhausts

theorem steps : Steps (assembly.launch signal now) events last :=
  run?_eq_some_iff.mp exhausts.ran

theorem landed : last.Quiet := quiet_of_allClosed exhausts.closed

theorem processes :
    assembly.stages.Processes assembly.outputs.length
      (((assembly.launch signal now).history events).filterMap Occurrence.handling?)
      last.stages :=
  exhausts.steps.processes

theorem instants :
    ∀ handling ∈ ((assembly.launch signal now).history events).filterMap Occurrence.handling?,
      handling.instant = now :=
  exhausts.steps.instant_eq exhausts.still

include otherExhausts

theorem taken_eq (input : Nat) :
    ((assembly.launch signal now).history events).filterMap (Occurrence.taken? input) =
      ((assembly.launch signal now).history others).filterMap (Occurrence.taken? input) :=
  (exhausts.taken input).trans (otherExhausts.taken input).symm

theorem agrees (recalls : assembly.stages.filter.Recalls whitelist timeToLive now [])
    (positive : 0 < timeToLive) (apart : SessionsApart items) :
    assembly.Agrees ((assembly.launch signal now).history events)
      ((assembly.launch signal now).history others) last otherLast := by
  obtain ⟨home, kept⟩ := apart
  have atHome := Occurrence.atHome_of_items exhausts.taken kept
  have taken := Occurrence.taken_alike (exhausts.taken_eq otherExhausts)
  have verdicts := exhausts.processes.examined_alike otherExhausts.processes recalls
    exhausts.instants otherExhausts.instants atHome taken
  have steps := exhausts.steps
  have otherSteps := otherExhausts.steps
  have landed := exhausts.landed
  have otherLanded := otherExhausts.landed
  constructor
  case verdicts => exact verdicts
  case remembered =>
    exact exhausts.processes.entries_perm otherExhausts.processes recalls
      exhausts.instants otherExhausts.instants atHome taken positive
  case tally =>
    exact tally_eq_of_verdicts steps otherSteps verdicts
      (Occurrence.failedReader?_perm (exhausts.taken_eq otherExhausts)) exhausts.closed
      otherExhausts.closed
  case writes =>
    have settled := settled_eq steps otherSteps landed otherLanded verdicts
    rw [steps.examined_tally, otherSteps.examined_tally]
    simp only [Counter.ofNat, ← UInt64.ofNat_add]
    exact congrArg UInt64.ofNat settled
  case offered =>
    intro fixed output
    have alike := offered_alike steps otherSteps landed otherLanded verdicts fixed output
    exact ⟨alike, alike.perm.map Prod.snd⟩
  case offered_length => exact offered_length steps otherSteps landed otherLanded verdicts

theorem agreesOnWrites
    (agrees : assembly.Agrees ((assembly.launch signal now).history events)
      ((assembly.launch signal now).history others) last otherLast)
    {outcome : Nat → Bytes → Option IoError}
    (ends : WritesEnd outcome ((assembly.launch signal now).history events))
    (otherEnds : WritesEnd outcome ((assembly.launch signal now).history others))
    (blind : assembly.stages.router.policy = .roundRobin →
      ∀ output frame other, outcome output frame = outcome output other) :
    assembly.AgreesOnWrites ((assembly.launch signal now).history events)
      ((assembly.launch signal now).history others) last otherLast := by
  have steps := exhausts.steps
  have otherSteps := otherExhausts.steps
  have landed := exhausts.landed
  have otherLanded := otherExhausts.landed
  have held := accepted_length steps otherSteps landed otherLanded agrees.verdicts ends otherEnds
    blind
  constructor
  case tally =>
    have settled := settled_eq steps otherSteps landed otherLanded agrees.verdicts
    have accepted := steps.sum_accepted landed
    -- As many frames are held, so as many writes were accepted; the others were refused.
    rw [Finset.sum_congr rfl fun output _ => held output, ← otherSteps.sum_accepted otherLanded]
      at accepted
    have writes : otherLast.tally.writes = last.tally.writes := by
      rw [steps.examined_tally, otherSteps.examined_tally, accepted]
    have failures : otherLast.tally.writeFailures = last.tally.writeFailures := by
      rw [accepted] at settled
      rw [steps.examined_tally, otherSteps.examined_tally, Nat.add_left_cancel settled]
    exact agrees.tally.trans (by rw [writes, failures])
  case accepted =>
    intro fixed output
    have alike := accepted_alike steps otherSteps landed otherLanded agrees.verdicts ends otherEnds
      fixed output
    exact ⟨alike, alike.perm.map Prod.snd⟩
  case accepted_length => exact held

end Exhausts

end Relay

/-- The filter of an accepted configuration has nothing on record, and what it will have
does not expire at once. -/
theorem Assembly.filter_of_ofSettings {settings : RelaySettings} {created : Instant}
    {base : Assembly} (accepted : ofSettings settings created = .ok base) (now : Instant) :
    ∃ whitelist timeToLive, 0 < timeToLive ∧
      base.stages.filter.Recalls whitelist timeToLive now [] := by
  obtain ⟨policy, valid, same⟩ := bind_eq_ok.mp accepted
  obtain ⟨named, -, checked⟩ := bind_eq_ok.mp valid
  cases same
  refine ⟨_, _, ?_, Filter.Recalls.of_empty _ _ _ created now⟩
  split at checked
  · cases checked
  · rename_i nonzero
    have milliseconds : 0 < settings.verdicts.timeToLive.toNat :=
      Nat.pos_of_ne_zero fun zero => nonzero (UInt64.toNat_inj.mp zero)
    exact Nat.mul_pos milliseconds (by decide)

/-- However the readers of a relay with an accepted configuration take turns, as long as
the clock stands still, every input is read to its end and every session keeps to one
input: each frame is given the same verdict, the same verdicts are on record in the end, the
counters are the same, and every output is offered the same frames, those of each input in
order, or under round robin as many.  Only the outcomes of writes are up to the outputs;
where a frame is always accepted or always refused, the outputs hold the same frames. -/
theorem Assembly.runs_agree {settings : RelaySettings} {created now : Instant}
    {base : Assembly} (accepted : ofSettings settings created = .ok base)
    (inputs : List (String × Inlet)) (outputs : List String) (listening : Bool)
    (signal : Signal) {items : Nat → List Item} (apart : SessionsApart items)
    {events others : List Event} {last otherLast : Relay} :
    let assembly : Assembly := { base with inputs, outputs, listening }
    let launched := assembly.launch signal now
    let happened := launched.history events
    let otherHappened := launched.history others
    launched.Exhausts items events last → launched.Exhausts items others otherLast →
      assembly.Agrees happened otherHappened last otherLast ∧
        ∀ outcome, WritesEnd outcome happened → WritesEnd outcome otherHappened →
          (assembly.stages.router.policy = .roundRobin →
            ∀ output frame other, outcome output frame = outcome output other) →
          assembly.AgreesOnWrites happened otherHappened last otherLast := by
  intro assembly launched happened otherHappened exhausts otherExhausts
  obtain ⟨whitelist, timeToLive, positive, recalls⟩ := filter_of_ofSettings accepted now
  have agrees := exhausts.agrees otherExhausts recalls positive apart
  refine ⟨agrees, ?_⟩
  intro outcome ends otherEnds blind
  exact exhausts.agreesOnWrites otherExhausts agrees ends otherEnds blind

/-- A request that is filtered and its answer come in at one input; at the other one come a
frame that is no record, a request that is allowed, and an error.  The second output
refuses what it is offered. -/
theorem Assembly.runs_agree_interleaved :
    let answer : Bytes := Sample.frame 50 97 []
    let settings : RelaySettings := ⟨⟨["GET"]⟩, ⟨false, false⟩, ⟨5, 1⟩⟩
    let stages : Stages := ⟨settings.newFilter 0, .ofPolicy .broadcast⟩
    let items (input : Nat) : List Item :=
      if input = 0 then [.frame (Sample.put 97), .frame answer]
      else if input = 1 then [.frame [33], .frame (Sample.get 98), .failure .rejectedWrite]
      else []
    let assembly : Assembly :=
      ⟨stages, [("a", .ofItems (items 0)), ("b", .ofItems (items 1))], ["x", "y"], true⟩
    let launched := assembly.launch .lowered 7
    let refused : Option IoError := some .rejectedWrite
    let first : List Event :=
      [.take 0, .take 1, .take 0, .take 1, .write 1 0 none, .leave 0, .write 1 1 refused,
        .land 1, .take 1, .close 1, .close 0]
    let second : List Event :=
      [.take 1, .take 1, .write 1 1 refused, .take 0, .write 1 0 none, .land 1, .take 0,
        .leave 0, .close 0, .take 1, .close 1]
    ∃ last other, launched.Exhausts items first last ∧ launched.Exhausts items second other ∧
      assembly.Agrees (launched.history first) (launched.history second) last other ∧
      assembly.AgreesOnWrites (launched.history first) (launched.history second) last other := by
  intro answer settings stages items assembly launched refused first second
  have accepted : Assembly.ofSettings settings 0 = .ok ⟨stages, [], [], false⟩ := by rfl
  have apart : SessionsApart items := by
    refine ⟨fun session => if session.bytes = List.replicate 20 97 then 0 else 1, ?_⟩
    intro input frame record listed decoded
    simp only [Record.session_of_decode decoded]
    by_cases firstInput : input = 0
    · subst firstInput
      have own : frame = Sample.put 97 ∨ frame = answer := by simpa [items] using listed
      rcases own with rfl | rfl <;> rfl
    · by_cases secondInput : input = 1
      · subst secondInput
        have own : frame = [33] ∨ frame = Sample.get 98 := by
          simpa [items] using listed
        rcases own with rfl | rfl <;> rfl
      · simp [items, firstInput, secondInput] at listed
  have exhausts {events : List Event}
      (shown : ((launched.run? events).map fun last => (last.clock, last.allClosed)) =
        some (7, true))
      (taken : (launched.history events).filterMap (Occurrence.taken? 0) = items 0 ∧
        (launched.history events).filterMap (Occurrence.taken? 1) = items 1) :
      ∃ last, launched.Exhausts items events last := by
    obtain ⟨last, ran, state⟩ := Option.map_eq_some_iff.mp shown
    obtain ⟨still, closed⟩ := Prod.mk.inj state
    refine ⟨last, ran, still, ?_, closed⟩
    intro input
    by_cases firstInput : input = 0
    · rw [firstInput, taken.1]
    · by_cases secondInput : input = 1
      · rw [secondInput, taken.2]
      · have beyond : launched.readers.length ≤ input :=
          Nat.lt_of_le_of_ne (Nat.pos_of_ne_zero firstInput) (Ne.symm secondInput)
        simp only [items, firstInput, secondInput, if_false]
        exact (Relay.run?_eq_some_iff.mp ran).taken_eq_nil beyond
  obtain ⟨last, run⟩ : ∃ last, launched.Exhausts items first last :=
    exhausts (by decide +kernel) (by decide +kernel)
  obtain ⟨other, otherRun⟩ : ∃ other, launched.Exhausts items second other :=
    exhausts (by decide +kernel) (by decide +kernel)
  obtain ⟨agrees, further⟩ :=
    Assembly.runs_agree accepted assembly.inputs assembly.outputs true .lowered apart run otherRun
  refine ⟨last, other, run, otherRun, agrees, ?_⟩
  have fixed : Policy.broadcast ≠ .roundRobin := by decide
  exact further (fun output _ => if output = 1 then refused else none) (by decide +kernel)
    (by decide +kernel) fun turns => absurd turns fixed

end TrafficRelay
