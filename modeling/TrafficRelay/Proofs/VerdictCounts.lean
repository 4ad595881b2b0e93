import TrafficRelay.Proofs.ExaminedFrames
import TrafficRelay.Proofs.SessionPlacement
import TrafficRelay.Proofs.TallyConservation

/-!
# What follows from the verdicts

Each counter but two is a count of verdicts or of readers, and the two that count writes
add up to one.  Where a policy takes no turns, a frame and the verdict on it determine
which outputs it goes to; under round robin the number of allowed frames determines how
many each output gets.
-/

namespace TrafficRelay

namespace Decision

theorem isMalformed_iff {decision : Decision} :
    decision.isMalformed = true ↔ decision.verdict? = none := by
  cases decision <;> simp [isMalformed, verdict?]

theorem isFiltered_iff {decision : Decision} :
    decision.isFiltered = true ↔ decision.verdict? = some .drop := by
  cases decision <;> simp [isFiltered, verdict?]

end Decision

theorem Handling.isSome_passed? {handling : Handling} :
    handling.passed?.isSome = true ↔ handling.decision.verdict? = some .allow := by
  unfold passed?
  cases handling.decision <;> simp [Decision.verdict?]

/-- How many frames have this verdict. -/
def verdictCount (verdict? : Option Verdict) (examined : List Examined) : Nat :=
  examined.countP fun entry => entry.verdict? = verdict?

theorem verdictCount_perm {verdict? : Option Verdict} {examined other : List Examined}
    (permuted : examined.Perm other) :
    verdictCount verdict? examined = verdictCount verdict? other :=
  permuted.countP_eq _

theorem countP_isMalformed_eq (handlings : List Handling) :
    (handlings.map Handling.decision).countP Decision.isMalformed =
      verdictCount none (handlings.map Handling.examined) := by
  rw [verdictCount, List.countP_map, List.countP_map]
  exact List.countP_congr fun handling _ =>
    Decision.isMalformed_iff.trans decide_eq_true_iff.symm

theorem countP_isFiltered_eq (handlings : List Handling) :
    (handlings.map Handling.decision).countP Decision.isFiltered =
      verdictCount (some .drop) (handlings.map Handling.examined) := by
  rw [verdictCount, List.countP_map, List.countP_map]
  exact List.countP_congr fun handling _ =>
    Decision.isFiltered_iff.trans decide_eq_true_iff.symm

/-- As many frames are passed on as are allowed. -/
theorem length_passed_eq (handlings : List Handling) :
    (handlings.filterMap Handling.passed?).length =
      verdictCount (some .allow) (handlings.map Handling.examined) := by
  rw [List.length_filterMap_eq_countP, verdictCount, List.countP_map]
  exact List.countP_congr fun handling _ =>
    Handling.isSome_passed?.trans decide_eq_true_iff.symm

namespace Relay

variable {last : Relay} {events : List Event} {assembly : Assembly} {signal : Signal}
  {now : Instant}

/-- The writes of the frames that land in a run. -/
def settled (relay : Relay) (events : List Event) : List Write :=
  (relay.journal events).flatMap JournalEntry.settled

/-- The counters show how often each verdict was found. -/
theorem Steps.examined_tally (steps : Steps (assembly.launch signal now) events last) :
    let happened := (assembly.launch signal now).history events
    let examined := examinations happened
    let writes := (assembly.launch signal now).settled events
    last.tally =
      { received := .ofNat examined.length
        malformed := .ofNat (verdictCount none examined)
        filtered := .ofNat (verdictCount (some .drop) examined)
        forwarded := .ofNat (if assembly.outputs = [] then 0
          else verdictCount (some .allow) examined)
        writes := .ofNat (writes.countP Write.isAccepted)
        writeFailures := .ofNat (writes.countP Write.isRefused)
        readFailures := .ofNat (happened.filterMap Occurrence.failedReader?).length
        inputsStarted := .ofNat assembly.inputs.length
        inputsClosed := .ofNat last.closedReaders } := by
  intro happened examined writes
  have processes : assembly.stages.Processes assembly.outputs.length _ last.stages :=
    steps.processes
  have received : (happened.filterMap Occurrence.handling?).length = examined.length :=
    (List.length_map _).symm
  have malformed : (happened.filterMap Occurrence.handling?).countP Handling.isUnreadable =
      verdictCount none examined :=
    processes.countP_isMalformed.symm.trans (countP_isMalformed_eq _)
  have filtered : ((happened.filterMap Occurrence.handling?).map Handling.decision).countP
      Decision.isFiltered = verdictCount (some .drop) examined :=
    countP_isFiltered_eq _
  have allowed : (assembly.allowed happened).length = verdictCount (some .allow) examined :=
    processes.length_passed.symm.trans (length_passed_eq _)
  rw [steps.tally_eq, received, malformed, filtered, allowed]
  rfl

/-- Once every frame has landed, each write of an allowed one has been counted. -/
theorem Steps.examined_settled (steps : Steps (assembly.launch signal now) events last)
    (landed : last.Quiet) :
    let launched := assembly.launch signal now
    (launched.settled events).countP Write.isAccepted +
        (launched.settled events).countP Write.isRefused =
      assembly.fanout *
        if assembly.outputs = [] then 0
        else verdictCount (some .allow) (examinations (launched.history events)) := by
  intro launched
  have processes : assembly.stages.Processes assembly.outputs.length _ last.stages :=
    steps.processes
  have forwarded : ((launched.journal events).filterMap JournalEntry.decision?).countP
      Decision.isForwarded = if assembly.outputs = [] then 0
        else verdictCount (some .allow) (examinations (launched.history events)) := by
    rw [steps.decisions_eq, processes.countP_isForwarded, length_passed_eq]
    simp only [List.length_eq_zero_iff]
    rfl
  rw [← forwarded, ← steps.countP_settled, settled, landed.framesInFlight_eq, Nat.mul_zero,
    Nat.add_zero]

/-- Once every frame has landed, the writes that were accepted are those of the frames
that the outputs hold. -/
theorem Steps.sum_accepted (steps : Steps (assembly.launch signal now) events last)
    (landed : last.Quiet) :
    ((assembly.launch signal now).settled events).countP Write.isAccepted =
      ∑ output ∈ Finset.range assembly.outputs.length,
        (((assembly.launch signal now).history events).filterMap
          (Occurrence.accepted? output)).length := by
  rw [settled, TrafficRelay.sum_accepted (steps.offered_lt (launch_sound assembly signal now)),
    ← steps.finished_eq, ← steps.countP_isAccepted landed]

end Relay

/-- Whether a write, if this is one, ends as it should for its output and its frame. -/
def Occurrence.endsAs (outcome : Nat → Bytes → Option IoError) : Occurrence → Bool
  | .offered _ output frame refusal => refusal = outcome output frame
  | .handled _ | .readFailed _ _ | .queued _ _ => true

/-- The writes of a frame to an output end in one way, whenever they are made. -/
def WritesEnd (outcome : Nat → Bytes → Option IoError) (happened : List Occurrence) : Prop :=
  ∀ occurrence ∈ happened, occurrence.endsAs outcome = true

instance (outcome : Nat → Bytes → Option IoError) (happened : List Occurrence) :
    Decidable (WritesEnd outcome happened) :=
  inferInstanceAs (Decidable (∀ _ ∈ happened, _))

/-- An output holds the frames that it has been offered and does not refuse. -/
theorem WritesEnd.accepted_eq {outcome : Nat → Bytes → Option IoError}
    {happened : List Occurrence} (ends : WritesEnd outcome happened) (output : Nat) :
    happened.filterMap (Occurrence.accepted? output) =
      (happened.filterMap (Occurrence.offer? output)).filter
        fun entry => (outcome output entry.2).isNone := by
  rw [List.filter_filterMap]
  apply List.filterMap_congr
  intro occurrence member
  cases occurrence with
  | offered reader target frame refusal =>
      obtain rfl : refusal = outcome target frame := of_decide_eq_true (ends _ member)
      by_cases own : target = output
      · subst own
        cases answer : outcome target frame <;>
          simp [Occurrence.accepted?, Occurrence.offer?, Option.filter_some, answer]
      · cases outcome target frame <;>
          simp [Occurrence.accepted?, Occurrence.offer?, own]
  | _ => rfl

/-- Whether a frame goes to an output under a policy that takes no turns. -/
def Policy.sends (policy : Policy) (outputs output : Nat) (examined : Examined) : Bool :=
  match Record.decode examined.frame with
  | .error _ => false
  | .ok record =>
      examined.verdict? = some .allow &&
        (policy.choice outputs 0 record.session).contains output

namespace Stages

variable {outputs output : Nat} {stages last : Stages} {handlings : List Handling}
  {handling : Handling}

/-- A frame that is passed on is a record, and it goes where the policy sends its session. -/
theorem Processes.selected_eq (processes : stages.Processes outputs handlings last)
    (member : handling ∈ handlings) {selected : List Nat}
    (routed : handling.decision = .routed selected) :
    ∃ record turn, Record.decode handling.frame = .ok record ∧
      selected = stages.router.policy.choice outputs turn record.session := by
  have passed : handling.passed? = some (handling.frame, selected) := by
    rw [Handling.passed?, routed]
  have listed := List.mem_filterMap.mpr ⟨handling, member, passed⟩
  rw [processes.passed fun _ _ => stages.router.turns.reading_toNat] at listed
  obtain ⟨⟨⟨session, frame⟩, place⟩, placed, same⟩ := List.mem_map.mp listed
  obtain ⟨rfl, rfl⟩ := Prod.mk.inj same
  obtain ⟨record, decoded, rfl⟩ :=
    Filter.session_of_mem_allowed (List.fst_mem_of_mem_zipIdx placed)
  exact ⟨record, _, decoded, rfl⟩

/-- Without turns, the frame and the verdict on it determine where it goes. -/
theorem Processes.reaches_eq (processes : stages.Processes outputs handlings last)
    (fixed : stages.router.policy ≠ .roundRobin) (member : handling ∈ handlings) :
    handling.decision.reaches output =
      stages.router.policy.sends outputs output handling.examined := by
  have unsent (refused : handling.decision.verdict? ≠ some .allow) :
      stages.router.policy.sends outputs output handling.examined = false := by
    unfold Policy.sends
    split
    · rfl
    · simp [Handling.examined, refused]
  rcases decision : handling.decision with error | _ | selected
  · rw [unsent (by simp [decision, Decision.verdict?])]
    rfl
  · rw [unsent (by simp [decision, Decision.verdict?])]
    rfl
  · obtain ⟨record, turn, decoded, rfl⟩ := processes.selected_eq member decision
    have chosen : stages.router.policy.choice outputs turn record.session =
        stages.router.policy.choice outputs 0 record.session :=
      Policy.choice_congr (fun turns _ => (fixed turns).elim) record.session
    simp only [Decision.reaches, Policy.sends, Handling.examined, decoded, decision,
      Decision.verdict?, decide_true, Bool.true_and, chosen]

end Stages

namespace Relay

variable {relay last : Relay} {events : List Event} {output : Nat}

/-- What is routed to an output without turns, read off the verdicts. -/
theorem Steps.routed_eq (steps : Steps relay events last)
    (fixed : relay.stages.router.policy ≠ .roundRobin) :
    (relay.history events).filterMap (Occurrence.routed? output) =
      (examinations (relay.history events)).filterMap fun examined =>
        if relay.stages.router.policy.sends relay.outputs.length output examined
        then some examined.taken else none := by
  rw [examinations, List.filterMap_map, List.filterMap_filterMap]
  apply List.filterMap_congr
  intro occurrence happened
  cases occurrence with
  | handled handling =>
      have member : handling ∈ (relay.history events).filterMap Occurrence.handling? :=
        List.mem_filterMap.mpr ⟨_, happened, rfl⟩
      simp only [Occurrence.routed?, steps.processes.reaches_eq fixed member]
      rfl
  | _ => rfl

/-- Under round robin the number of allowed frames determines how many an output gets. -/
theorem Steps.length_offered (steps : Steps relay events last) (quiet : relay.Quiet)
    (landed : last.Quiet) (roundRobin : relay.stages.router.policy = .roundRobin) :
    ((relay.history events).filterMap (Occurrence.offer? output)).length =
      (List.range' relay.stages.router.turns.toNat
        (verdictCount (some .allow) (examinations (relay.history events)))).countP
          fun place => (pick relay.outputs.length (Counter.reading place)).contains output := by
  have offered := (steps.offered_perm quiet output).length_eq
  rw [landed.awaiting_eq_nil, List.append_nil, List.length_map] at offered
  rw [offered, examinations, ← length_passed_eq, steps.processes.length_passed,
    steps.processes.passed fun _ _ => relay.stages.router.turns.reading_toNat, roundRobin,
    List.filterMap_map, List.length_filterMap_eq_countP, ← List.zipIdx_map_snd, List.countP_map]
  apply List.countP_congr
  rintro ⟨⟨session, frame⟩, place⟩ -
  simp [passedTo?, Policy.choice]

end Relay

end TrafficRelay
