import TrafficRelay.Proofs.AlikeRuns
import TrafficRelay.Proofs.ExaminedFrames
import TrafficRelay.Proofs.JournalCounts

/-!
# What decides the fate of a frame

Whether a frame can be decoded, the kind and the session of its record, and for a request
the judgement of the whitelist on its body: that is all that the filter, the router and
the tally ever see of it.  Two runs whose frames agree in this go the same way to the
end, whatever else the frames hold.
-/

namespace TrafficRelay

namespace Whitelist

/-- What two frames are decoded to, if nobody who decides about them can tell between
them. -/
def EquatesReadings (whitelist : Whitelist) :
    Except HeaderError Record → Except HeaderError Record → Prop
  | .error _, .error _ => True
  | .ok record, .ok other =>
      record.header.kind = other.header.kind ∧ record.session = other.session ∧
        (record.header.kind = .request →
          whitelist.judge record.body = whitelist.judge other.body)
  | .error _, .ok _ | .ok _, .error _ => False

instance (whitelist : Whitelist) :
    (reading other : Except HeaderError Record) →
      Decidable (whitelist.EquatesReadings reading other)
  | .error _, .error _ => inferInstanceAs (Decidable True)
  | .ok _, .ok _ => inferInstanceAs (Decidable (_ ∧ _ ∧ (_ → _)))
  | .error _, .ok _ | .ok _, .error _ => inferInstanceAs (Decidable False)

def Equates (whitelist : Whitelist) (frame other : Bytes) : Prop :=
  whitelist.EquatesReadings (Record.decode frame) (Record.decode other)

instance (whitelist : Whitelist) (frame other : Bytes) :
    Decidable (whitelist.Equates frame other) :=
  inferInstanceAs (Decidable (whitelist.EquatesReadings _ _))

end Whitelist

namespace Whitelist

variable (whitelist : Whitelist)

/-- Items that are frames between which nobody can tell, or read errors of any kind. -/
def EquatesItems : Item → Item → Prop
  | .frame frame, .frame other => whitelist.Equates frame other
  | .failure _, .failure _ => True
  | .frame _, .failure _ | .failure _, .frame _ => False

/-- Inlets whose items correspond one to one. -/
def EquatesInlets (inlet other : Inlet) : Prop :=
  List.Forall₂ whitelist.EquatesItems inlet.queue other.queue ∧ other.senders = inlet.senders

/-- Nothing matters but the fate of the frames, and whether a read or a write fails. -/
def likeness : Likeness where
  whitelist := whitelist
  frames := whitelist.Equates
  errors _ _ := True
  causes _ _ := True
  items := whitelist.EquatesItems
  inlets := whitelist.EquatesInlets
  failed index entry := ∃ error, entry = .occurred (.readFailed index error)

variable {whitelist}

theorem Equates.judge {record counterpart : Record} {filter : Filter} (now : Instant)
    (fixed : filter.whitelist = whitelist)
    (kinds : record.header.kind = counterpart.header.kind)
    (sessions : record.session = counterpart.session)
    (bodies : record.header.kind = .request →
      whitelist.judge record.body = whitelist.judge counterpart.body) :
    filter.judge now counterpart = filter.judge now record := by
  subst fixed
  unfold Filter.judge
  rw [← kinds, ← sessions]
  cases kind : record.header.kind with
  | request => simp only [bodies kind]
  | response => rfl
  | replayReport => rfl

/-- Frames of one fate are decided alike and leave the same behind. -/
theorem Equates.decide {stages : Stages} {frame other : Bytes} (outputs : Nat) (now : Instant)
    (fixed : stages.filter.whitelist = whitelist) (equal : whitelist.Equates frame other) :
    whitelist.likeness.Decisions (stages.decide outputs now frame).1
        (stages.decide outputs now other).1 ∧
      (stages.decide outputs now other).2 = (stages.decide outputs now frame).2 := by
  unfold Equates at equal
  unfold Stages.decide
  generalize Record.decode frame = reading at equal ⊢
  generalize Record.decode other = counterpart at equal ⊢
  match reading, counterpart, equal with
  | .error error, .error _, _ => exact ⟨.malformed trivial, rfl⟩
  | .ok record, .ok other, ⟨kinds, sessions, bodies⟩ =>
      dsimp only
      rw [Equates.judge now fixed kinds sessions bodies, ← sessions]
      rcases stages.filter.judge now record with ⟨_ | _, filter⟩
      · exact ⟨.routed _, rfl⟩
      · exact ⟨.filtered, rfl⟩

theorem likeness_lawful (whitelist : Whitelist) : whitelist.likeness.Lawful where
  decide outputs now fixed equal := equal.decide outputs now fixed
  readFrame := by
    rintro ⟨queue, senders⟩ ⟨others, _⟩ rest frame ⟨related, rfl⟩ read
    cases related with
    | nil => cases Relay.queue_of_read read
    | @cons item other _ remaining items related =>
        cases read
        cases other with
        | frame counterpart => exact ⟨counterpart, _, rfl, items, related, rfl⟩
        | failure error => exact items.elim
  readEnded := by
    rintro ⟨queue, senders⟩ ⟨others, _⟩ ⟨related, rfl⟩ ended
    cases related with
    | nil => exact ended
    | cons items related => cases ended
  push := by
    rintro ⟨queue, senders⟩ ⟨others, _⟩ item counterpart ⟨related, rfl⟩ items
    unfold Inlet.push
    dsimp only
    split
    · exact ⟨related, rfl⟩
    · exact ⟨List.rel_append related (.cons items .nil), rfl⟩
  close related := ⟨related.1, rfl⟩

section

variable {relay other next last : Relay} {events altered : List Event}

/-- Where the one relay runs into a read error, so does the other. -/
theorem likeness_takeFailure (alike : whitelist.likeness.Relays relay other) {index : Nat}
    {error : IoError} (step : Relay.Step relay (.take index) next)
    (failed : .occurred (.readFailed index error) ∈ relay.entries (.take index)) :
    ∃ follower, Relay.Step other (.take index) follower ∧
      whitelist.likeness.Relays next follower ∧
      List.Forall₂ whitelist.likeness.Entries (relay.deedsOf (.take index))
        (other.deedsOf (.take index)) := by
  cases step with
  | takeFrame found idle lowered read =>
      rw [Relay.entries_takeFrame found read] at failed
      cases List.mem_singleton.mp failed
  | @takeFailure _ reader _ inlet found idle lowered read =>
      obtain ⟨counterpart, present, readers⟩ := exists_of_forall₂ alike.readers found
      obtain ⟨idles, related, -⟩ := readers.phase_eq_idle idle
      rw [Relay.queue_of_read read, List.forall₂_cons_left_iff] at related
      obtain ⟨item, queue, items, -, queued⟩ := related
      cases item with
      | frame frame => exact items.elim
      | failure answer =>
          have readOther : counterpart.inlet.read =
              .item (.failure answer) { counterpart.inlet with queue } := by
            rw [Inlet.read, queued]
          rw [← alike.signal] at lowered
          refine ⟨_, .takeFailure present idles lowered readOther, ?_, ?_⟩
          · refine ((alike.withTally _ _).report _ _).setReader ?_ index
            exact ⟨.leaving, nofun⟩
          · rw [Relay.deedsOf, Relay.deedsOf, Relay.entries_takeFailure found read,
              Relay.entries_takeFailure present readOther]
            exact .cons (.readFailed ⟨answer, rfl⟩) .nil

/-- A run can be followed by any relay whose frames, and any events whose outcomes,
correspond. -/
theorem likeness_follows (steps : Relay.Steps relay events last)
    (alike : whitelist.likeness.Relays relay other)
    (same : List.Forall₂ whitelist.likeness.Events events altered) :
    ∃ follower, Relay.Steps other altered follower ∧
      whitelist.likeness.Relays last follower ∧
      List.Forall₂ whitelist.likeness.Entries (relay.deeds events) (other.deeds altered) := by
  induction steps generalizing other altered with
  | done relay =>
      cases same
      exact ⟨other, .done other, alike, .nil⟩
  | @step relay next last event events step steps induction =>
      cases same with
      | @cons _ counterpart _ altered here rest =>
          have once : ∃ follower, Relay.Step other counterpart follower ∧
              whitelist.likeness.Relays next follower ∧
              List.Forall₂ whitelist.likeness.Entries (relay.deedsOf event)
                (other.deedsOf counterpart) := by
            by_cases failing :
                ∃ index error, .occurred (.readFailed index error) ∈ relay.entries event
            · obtain ⟨index, error, failed⟩ := failing
              obtain rfl := Relay.take_of_readFailed failed
              cases here
              exact likeness_takeFailure alike step failed
            · push Not at failing
              exact alike.step (likeness_lawful whitelist) step here failing
          obtain ⟨follower, stepOther, relays, now⟩ := once
          obtain ⟨final, stepsOther, finals, later⟩ := induction relays rest
          refine ⟨final, .step stepOther stepsOther, finals, ?_⟩
          rw [step.deeds_cons, stepOther.deeds_cons]
          exact List.rel_append now later

end

end Whitelist

/-- What becomes of a frame that a reader takes at an instant. -/
structure Fate where
  reader : Nat
  instant : Instant
  verdict? : Option Verdict
  outputs : List Nat
  deriving DecidableEq, Repr

def Handling.fate (handling : Handling) : Fate :=
  ⟨handling.reader, handling.instant, handling.decision.verdict?, handling.decision.outputs⟩

/-- The fates of the frames that are taken. -/
def fates (happened : List Occurrence) : List Fate :=
  (happened.filterMap Occurrence.handling?).map Handling.fate

/-- A write of a reader to an output, and whether it succeeds. -/
def Occurrence.result? : Occurrence → Option (Nat × Nat × Bool)
  | .offered reader output _ refusal => some (reader, output, refusal.isNone)
  | .handled _ | .readFailed _ _ | .queued _ _ => none

namespace Whitelist

variable {whitelist : Whitelist} {entry other : JournalEntry}

theorem likeness_post (alike : whitelist.likeness.Entries entry other) (tally : Tally) :
    tally.post other = tally.post entry := by
  cases alike with
  | handled frames decisions =>
      cases decisions with
      | malformed errors => rfl
      | filtered => rfl
      | routed outputs => rfl
  | readFailed failed =>
      obtain ⟨error, rfl⟩ := failed
      rfl
  | offered frames causes => rfl
  | landed writes =>
      refine (List.rel_foldl (P := Eq) ?_ rfl writes).symm
      rintro tally _ rfl write counterpart alike
      cases alike <;> rfl
  | left index => rfl
  | closed index => rfl

theorem likeness_fate (alike : whitelist.likeness.Entries entry other) :
    (other.occurrence?.bind fun occurrence => occurrence.handling?.map Handling.fate) =
      entry.occurrence?.bind fun occurrence => occurrence.handling?.map Handling.fate := by
  cases alike with
  | handled frames decisions => cases decisions <;> rfl
  | readFailed failed =>
      obtain ⟨error, rfl⟩ := failed
      rfl
  | _ => rfl

theorem likeness_result (alike : whitelist.likeness.Entries entry other) :
    other.occurrence?.bind Occurrence.result? = entry.occurrence?.bind Occurrence.result? := by
  cases alike with
  | readFailed failed =>
      obtain ⟨error, rfl⟩ := failed
      rfl
  | offered frames causes => cases causes <;> rfl
  | _ => rfl

end Whitelist

/-- Relays that have yet to be launched and whose inputs correspond. -/
structure Assembly.Corresponds (assembly other : Assembly) : Prop where
  stages : other.stages = assembly.stages
  inputs :
    List.Forall₂
      (fun input counterpart =>
        assembly.stages.filter.whitelist.EquatesInlets input.2 counterpart.2)
      assembly.inputs other.inputs
  outputs : other.outputs.length = assembly.outputs.length
  listening : other.listening = assembly.listening

/-- How two runs compare whose frames are of one fate. -/
structure Relay.SharesFate (happened others : List Occurrence) (last other : Relay) : Prop where
  /-- The verdicts are the same, and the outputs that are selected. -/
  fates : fates others = fates happened
  /-- The same readers write to the same outputs in the same order, with the same success. -/
  results : others.filterMap Occurrence.result? = happened.filterMap Occurrence.result?
  tally : other.tally = last.tally
  /-- The verdicts on record are the same, and the turns that the router has taken. -/
  stages : other.stages = last.stages
  lifecycle : other.lifecycle = last.lifecycle

theorem Assembly.Corresponds.launch {assembly other : Assembly}
    (corresponds : assembly.Corresponds other) (signal : Signal) (now : Instant) :
    assembly.stages.filter.whitelist.likeness.Relays (assembly.launch signal now)
      (other.launch signal now) where
  readers := by
    unfold Assembly.launch
    rw [List.forall₂_map_left_iff, List.forall₂_map_right_iff]
    exact corresponds.inputs.imp fun _ _ inlets => ⟨.idle, fun _ => inlets⟩
  outputs := corresponds.outputs
  whitelist := rfl
  stages := corresponds.stages
  signal := rfl
  lifecycle := rfl
  listening := corresponds.listening
  clock := rfl

/-- Whatever else two runs differ in, if their frames and their failures correspond one to
one, whatever happens in the one happens in the other as well, and comes to the same. -/
theorem Assembly.run_shares_fate (assembly other : Assembly) (signal : Signal) (now : Instant)
    (corresponds : assembly.Corresponds other) {events altered : List Event} {last : Relay}
    (ran : (assembly.launch signal now).run? events = some last)
    (same : List.Forall₂ assembly.stages.filter.whitelist.likeness.Events events altered) :
    ∃ follower, (other.launch signal now).run? altered = some follower ∧
      Relay.SharesFate ((assembly.launch signal now).history events)
        ((other.launch signal now).history altered) last follower := by
  have steps := Relay.run?_eq_some_iff.mp ran
  obtain ⟨follower, stepsOther, relays, deeds⟩ :=
    Whitelist.likeness_follows steps (corresponds.launch signal now) same
  refine ⟨follower, Relay.run?_eq_some_iff.mpr stepsOther, ?_⟩
  constructor
  case fates =>
    rw [fates, fates, List.map_filterMap, List.map_filterMap,
      steps.filterMap_deeds fun _ _ => rfl, stepsOther.filterMap_deeds fun _ _ => rfl]
    exact filterMap_eq_of_forall₂ deeds Whitelist.likeness_fate
  case results =>
    rw [steps.filterMap_deeds fun _ _ => rfl, stepsOther.filterMap_deeds fun _ _ => rfl]
    exact filterMap_eq_of_forall₂ deeds Whitelist.likeness_result
  case tally =>
    have launched : (other.launch signal now).tally = (assembly.launch signal now).tally := by
      simp only [Assembly.launch, corresponds.inputs.length_eq]
    rw [steps.foldl_deeds, stepsOther.foldl_deeds, launched]
    refine (List.rel_foldl (P := Eq) ?_ rfl deeds).symm
    rintro tally _ rfl entry counterpart alike
    exact (Whitelist.likeness_post alike tally).symm
  case stages => exact relays.stages
  case lifecycle => exact relays.lifecycle

/-- A request in the full form and one in the capture form, whose bodies and variants differ
too, are followed by answers whose integers are spelled in different ways and by frames that
cannot be decoded for different reasons. -/
theorem Assembly.run_shares_fate_across_forms :
    let ident (session : UInt8) (variant : Bytes) : Bytes := List.replicate 20 session ++ variant
    let full (kind : UInt8) (variant integers body : Bytes) : Bytes :=
      [kind, 32] ++ ident 97 variant ++ [32] ++ integers ++ [10] ++ body
    let capture (variant body : Bytes) : Bytes :=
      [49, 32] ++ ident 97 variant ++ [32, 120, 10] ++ body
    let request : Bytes := full 49 [48, 48, 48, 48] [43, 48, 32, 45, 48] [71, 69, 84, 32]
    let captured : Bytes := capture [48, 48, 48, 49] [71, 69, 84, 32, 47]
    let answer : Bytes := full 50 [48, 48, 48, 50] [43, 48, 32, 45, 48] []
    let delayed : Bytes := full 50 [97, 98, 99, 100] [48, 48, 55, 32, 53] [33]
    let assembly (first second : Bytes) : Assembly :=
      ⟨⟨Sample.filter, .ofPolicy .roundRobin⟩,
        [("a", .ofItems [.frame first, .frame second]), ("b", .new)], ["x", "y"], true⟩
    let events (sent : Bytes) (cause : IoError) : List Event :=
      [.take 0, .send 1 (.frame sent), .write 0 0 none, .take 1, .land 0, .advance 2, .take 0,
        .write 1 1 (some cause), .land 1]
    ∃ last follower,
      ((assembly request [33]).launch .lowered 0).run? (events answer .notFound) = some last ∧
      ((assembly captured [10]).launch .lowered 0).run? (events delayed .notText) =
        some follower ∧
      last.tally.toList.map Counter.toNat = [3, 1, 0, 2, 1, 1, 0, 2, 0] ∧
      Relay.SharesFate
        (((assembly request [33]).launch .lowered 0).history (events answer .notFound))
        (((assembly captured [10]).launch .lowered 0).history (events delayed .notText))
        last follower := by
  intro ident full capture request captured answer delayed assembly events
  have shown : (((assembly request [33]).launch .lowered 0).run? (events answer .notFound)).map
      (fun last => last.tally.toList.map Counter.toNat) = some [3, 1, 0, 2, 1, 1, 0, 2, 0] := by
    rfl
  obtain ⟨last, ran, counters⟩ := Option.map_eq_some_iff.mp shown
  have requests : Sample.filter.whitelist.Equates request captured := by decide
  have answers : Sample.filter.whitelist.Equates answer delayed := by decide
  have unreadable : Sample.filter.whitelist.Equates [33] [10] := by decide
  have corresponds : (assembly request [33]).Corresponds (assembly captured [10]) :=
    ⟨rfl, .cons ⟨.cons requests (.cons unreadable .nil), rfl⟩ (.cons ⟨.nil, rfl⟩ .nil), rfl, rfl⟩
  have same : List.Forall₂ Sample.filter.whitelist.likeness.Events (events answer .notFound)
      (events delayed .notText) :=
    .cons (.same rfl) <| .cons (.send 1 answers) <| .cons (.write 0 0 .none) <|
      .cons (.same rfl) <| .cons (.same rfl) <| .cons (.same rfl) <| .cons (.same rfl) <|
      .cons (.write 1 1 (.some trivial)) <| .cons (.same rfl) .nil
  obtain ⟨follower, ranOther, shares⟩ :=
    Assembly.run_shares_fate _ _ .lowered 0 corresponds ran same
  exact ⟨last, follower, ran, ranOther, counters, shares⟩

end TrafficRelay
