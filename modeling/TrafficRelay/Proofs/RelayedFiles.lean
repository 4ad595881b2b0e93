import TrafficRelay.Proofs.FileReading
import TrafficRelay.Proofs.FileWriting
import TrafficRelay.Proofs.OpenedFiles
import TrafficRelay.Proofs.ReadRecords
import TrafficRelay.Proofs.RoutedFrames

/-!
# From file to file

A relay that reads one file and appends to others hands on the records of that
file.  Reading, deciding and writing are followed separately: what has been taken
are the records of the file, what has been routed to an output is its share of
what the filter allows, and what has been offered is stored.  Since a record that
was read holds no separator, reading the file of an output finds again what was
stored.
-/

namespace TrafficRelay

/-- An opened relay with nothing done yet. -/
def OpenedRelay.session (opened : OpenedRelay) (tree : FileTree) (now : Instant) :
    Session OpenFiles :=
  Session.start (opened.assembly.launch .lowered now) (opened.files tree)

namespace Occurrence

variable {output : Nat} {occurrence : Occurrence} {entry : Nat × Bytes}

theorem routed?_reader (found : occurrence.routed? output = some entry) :
    entry.1 = occurrence.reader := by
  cases occurrence with
  | handled handling =>
      simp only [routed?] at found
      split at found <;> cases found
      rfl
  | _ => cases found

theorem offer?_reader (found : occurrence.offer? output = some entry) :
    entry.1 = occurrence.reader := by
  cases occurrence with
  | offered reader target frame refusal =>
      simp only [offer?] at found
      split at found <;> cases found
      rfl
  | _ => cases found

/-- Where there is a single reader, there is nothing to tell apart. -/
theorem filterMap_filter_reader {pick : Occurrence → Option (Nat × Bytes)}
    (reads : ∀ {occurrence entry}, pick occurrence = some entry →
      entry.1 = occurrence.reader)
    {past : List Occurrence} {index : Nat}
    (single : ∀ occurrence ∈ past, occurrence.reader = index) :
    past.filterMap (fun occurrence =>
        (pick occurrence).filter fun entry => entry.1 = index) =
      past.filterMap pick := by
  apply List.filterMap_congr
  intro occurrence member
  cases picked : pick occurrence with
  | none => rfl
  | some entry =>
      have own := (reads picked).trans (single occurrence member)
      simp [Option.filter_some, own]

end Occurrence

namespace Relay

variable {relay next last : Relay} {event : Event} {events : List Event}

/-- A single reader has offered what was routed, once no frame is in flight. -/
theorem Steps.offers_eq_routed (steps : Steps relay events last)
    (single : relay.readers.length = 1) (quietBefore : relay.Quiet) (quiet : last.Quiet)
    (output : Nat) :
    Occurrence.offers output (relay.history events) =
      ((relay.history events).filterMap Occurrence.handling?).filterMap
        (Handling.routed? output) := by
  have own (occurrence : Occurrence) (member : occurrence ∈ relay.history events) :
      occurrence.reader = 0 := by
    have bound := steps.reader_lt occurrence member
    omega
  have carried := steps.held (carries_awaited 0 output)
  rw [quietBefore.held_awaited, quiet.held_awaited, List.nil_append, List.append_nil,
    Occurrence.filterMap_filter_reader Occurrence.routed?_reader own,
    Occurrence.filterMap_filter_reader Occurrence.offer?_reader own] at carried
  rw [Occurrence.offers, ← carried, Occurrence.routed?_eq]

theorem Step.clock (step : Step relay event next) (inner : event.fromOutside = false) :
    next.clock = relay.clock := by
  cases step with
  | takeFrame found idle lowered read => simp [setReader, report_eq, decideFrame]
  | takeFailure found idle lowered read => simp [setReader, report_eq]
  | land found phase finished => simp [setReader, report_eq]
  | advance => cases inner
  | _ => rfl

theorem Steps.clock (steps : Steps relay events last)
    (inner : ∀ event ∈ events, event.fromOutside = false) : last.clock = relay.clock := by
  induction steps with
  | done relay => rfl
  | step step steps induction =>
      obtain ⟨here, later⟩ := List.forall_mem_cons.mp inner
      exact (induction later).trans (step.clock here)

/-- Left alone, a relay handles every frame at one instant. -/
theorem Steps.instant (steps : Steps relay events last)
    (inner : ∀ event ∈ events, event.fromOutside = false) {handling : Handling}
    (handled : handling ∈ (relay.history events).filterMap Occurrence.handling?) :
    handling.instant = relay.clock :=
  steps.instant_eq (steps.clock inner) handling handled

end Relay

namespace FileRelay

/-- The files of the outputs, read from their beginning, yield the records that
they held before and then their share of the frames that have been read. -/
def Delivers (relay : FileRelay) (now : Instant) (before : FileTree)
    (opened : OpenedRelay) (turns : Nat → Nat) (readings : List (Instant × Bytes))
    (after : FileTree) : Prop :=
  ∀ output (file : FileSettings), relay.settings.outputs[output]? = some file →
    ∃ location, opened.outputs[output]? = some location ∧
      after.openExisting file.path = .ok location ∧
      OpenFiles.Reads 0 ⟨after, [FileCursor.start location], []⟩
        (RecordFile.records (before.contentOrEmpty location) ++
          relay.policy.share relay.settings.outputs.length output turns
            ((relay.settings.relay.newFilter now).allowed readings))

/-- A relay has been opened that reads a single file, and no output is that file or
another output's. -/
structure Prepared (relay : FileRelay) (now : Instant) (tree : FileTree)
    (opened : OpenedRelay) (created : FileTree) (location : Location) (content : Bytes) :
    Prop where
  inputs : opened.inputs = [location]
  single : relay.settings.inputs.length = 1
  present : tree.contentAt location = .ok content
  opens : OpensInOrder tree relay.settings.outputs opened.outputs created
  assembly : opened.assembly = relay.assembly now
  distinct : (location :: opened.outputs).Nodup
  framed : ∀ output ∈ opened.outputs,
    RecordFile.EndsInSeparator (tree.contentOrEmpty output)

section

variable {relay : FileRelay} {now : Instant} {tree : FileTree} {opened : OpenedRelay}
  {created : FileTree} {location : Location} {content : Bytes}

theorem Prepared.stores (prepared : relay.Prepared now tree opened created location content) :
    (opened.files created).Stores location content opened.outputs created [] where
  opened := rfl
  directories := created.keepsDirectories_refl
  present := by
    have absent := (List.nodup_cons.mp prepared.distinct).1
    exact (FileTree.contentAt_congr (prepared.opens.creates.entry?_of_not_mem absent)).trans
      prepared.present
  appended output there found := by
    have held := prepared.opens.contents (List.mem_of_getElem? found)
    rw [FileTree.contentOrEmpty_of_contentAt held]
    exact held.trans (congrArg Except.ok (List.append_nil _).symm)

theorem Prepared.feeds (prepared : relay.Prepared now tree opened created location content) :
    (opened.session created now).Feeds location content [] where
  lowered := rfl
  account := by
    obtain ⟨file, only⟩ := List.length_eq_one_iff.mp prepared.single
    refine ⟨⟨file.name, .new, .idle⟩, 0, ⟨?_, ?_⟩, nofun, ?_⟩
    · simp [OpenedRelay.session, Session.start, Assembly.launch, prepared.assembly,
        FileRelay.assembly, only]
    · simp [OpenedRelay.session, Session.start, OpenedRelay.files, prepared.inputs,
        FileCursor.start]
    · simp [Reader.coming, Inlet.new]

/-- How the reader and the files stand at any time before the signal is raised. -/
theorem Prepared.follows
    (prepared : relay.Prepared now tree opened created location content)
    {events : List Event} {session : Session OpenFiles}
    (steps : Session.Steps OpenFiles.endpoints (opened.session created now) events session)
    (quiet : ∀ event ∈ events, event.raisesSignal = false) :
    let past := (opened.session created now).relay.history events
    session.Feeds location content past ∧
      session.outside.Stores location content opened.outputs created past := by
  apply Session.Steps.preserves (fun event => event.raisesSignal = false)
    (fun past session => session.Feeds location content past ∧
      session.outside.Stores location content opened.outputs created past) _ steps quiet
    (⟨prepared.feeds, prepared.stores⟩ : _ ∧ _)
  intro past session event next lowered invariant step
  obtain ⟨feeds, stores⟩ := invariant
  exact ⟨step.feeds lowered stores.present feeds, step.stores prepared.distinct stores⟩

theorem Prepared.one_reader
    (prepared : relay.Prepared now tree opened created location content) :
    (opened.session created now).relay.readers.length = 1 := by
  obtain ⟨reader, offset, reads, -⟩ := prepared.feeds.account
  rw [reads.alone, List.length_singleton]

/-- Once the reader is closed, every record of the file has been handled. -/
theorem Prepared.handled
    (prepared : relay.Prepared now tree opened created location content)
    {events : List Event} {session : Session OpenFiles}
    (steps : Session.Steps OpenFiles.endpoints (opened.session created now) events session)
    (quiet : ∀ event ∈ events, event.raisesSignal = false)
    (closed : session.relay.allClosed = true) :
    (((opened.session created now).relay.history events).filterMap
      Occurrence.handling?).map Handling.frame = RecordFile.records content := by
  obtain ⟨feeds, -⟩ := prepared.follows steps quiet
  apply Occurrence.handled_frames _ (feeds.taken closed)
  intro occurrence member
  have one := prepared.one_reader
  have bound := steps.relay.reader_lt occurrence member
  omega

/-- What has been routed to an output is its share of what has been handled. -/
theorem Prepared.routed_eq_share
    (prepared : relay.Prepared now tree opened created location content)
    {events : List Event} {last : Relay}
    (steps : (opened.session created now).relay.Steps events last) {output : Nat}
    (inRange : output < relay.settings.outputs.length) :
    let handled := ((opened.session created now).relay.history events).filterMap
      Occurrence.handling?
    handled.filterMap (Handling.routed? output) =
      relay.policy.share relay.settings.outputs.length output Counter.reading
        ((relay.settings.relay.newFilter now).allowed (handled.map Handling.reading)) := by
  have stages : (opened.session created now).relay.stages =
      ⟨relay.settings.relay.newFilter now, .ofPolicy relay.policy⟩ := by
    simp [OpenedRelay.session, Session.start, Assembly.launch, prepared.assembly,
      FileRelay.assembly]
  have width : (opened.session created now).relay.outputs.length =
      relay.settings.outputs.length := by
    simp [OpenedRelay.session, Session.start, Assembly.launch, prepared.assembly,
      FileRelay.assembly]
  have processes := steps.processes
  rw [stages, width] at processes
  exact processes.routed_eq_share inRange

/-- What the outputs hold once the reader has been closed. -/
theorem Prepared.delivers
    (prepared : relay.Prepared now tree opened created location content)
    {events : List Event} {session : Session OpenFiles}
    (steps : Session.Steps OpenFiles.endpoints (opened.session created now) events session)
    (quiet : ∀ event ∈ events, event.raisesSignal = false)
    (closed : session.relay.allClosed = true) :
    relay.Delivers now tree opened Counter.reading
      ((((opened.session created now).relay.history events).filterMap
        Occurrence.handling?).map Handling.reading) session.outside.tree := by
  intro output file named
  obtain ⟨-, stores⟩ := prepared.follows steps quiet
  have outputRange := (List.getElem?_eq_some_iff.mp named).1
  have inRange : output < opened.outputs.length := by
    rw [← prepared.opens.located.length_eq]
    exact outputRange
  have found := List.getElem?_eq_getElem inRange
  generalize opened.outputs[output] = there at found
  have member := List.mem_of_getElem? found
  have handled := prepared.handled steps quiet closed
  have routed := prepared.routed_eq_share steps.relay outputRange
  have offered := steps.relay.offers_eq_routed prepared.one_reader
    (Relay.launch_quiet _ _ _) (Relay.quiet_of_allClosed closed) output
  have present := stores.appended output there found
  rw [offered, FileTree.contentOrEmpty_of_contentAt (prepared.opens.contents member)]
    at present
  simp only at routed
  generalize ((opened.session created now).relay.history events).filterMap
    Occurrence.handling? = handlings at *
  -- What has been routed was read from the file, so none of it has a separator.
  have fromFile : ∀ frame ∈ handlings.filterMap (Handling.routed? output),
      frame ∈ RecordFile.records content := by
    intro frame passed
    rw [← handled]
    exact Handling.mem_of_routed? passed
  have again := RecordFile.records_append_stored (prepared.framed there member) fromFile
  refine ⟨there, found,
    prepared.opens.openExisting stores.directories named found present, ?_⟩
  have onlyInput : [FileCursor.start there][0]? = some ⟨there, 0⟩ := rfl
  rw [← routed, ← again]
  exact OpenFiles.reads_of_contentAt present onlyInput

theorem Prepared.remaining_le
    (prepared : relay.Prepared now tree opened created location content) :
    (opened.session created now).remaining ≤
      (opened.session created now).work OpenFiles.endpoints := by
  obtain ⟨reader, offset, reads, -⟩ := prepared.feeds.account
  have one : (opened.session created now).outside.inputs.length = 1 := by
    rw [reads.cursor, List.length_singleton]
  unfold Session.remaining Session.work
  generalize (opened.session created now).relay.work = work
  generalize (opened.session created now).relay.outputs.length = width
  have listening : (opened.session created now).relay.readers.countP
      (fun reader => reader.inlet.senders ≠ 0) ≤ 1 := by
    rw [reads.alone]
    exact List.countP_le_length
  have enough : (opened.session created now).outside.unreadCount + 1 ≤
      OpenFiles.endpoints.reserve (opened.session created now).outside := by
    simp only [OpenFiles.endpoints, one, OpenFiles.readings]
    generalize (opened.session created now).outside.outputs.length = outputs
    generalize (opened.session created now).outside.unreadCount = unread
    have items : unread + outputs ≤ (outputs + 1) * (unread + outputs) :=
      Nat.le_mul_of_pos_left _ (Nat.succ_pos outputs)
    omega
  have product := Nat.mul_le_mul_right (width + 4) enough
  rw [Nat.succ_mul] at product
  omega

/-- The relay is on its way through its file. -/
def Underway (location : Location) (content : Bytes) (outputs : List Location)
    (created : FileTree) (session : Session OpenFiles) : Prop :=
  session.Attended ∧ ∃ past, session.Feeds location content past ∧
    session.outside.Stores location content outputs created past

theorem Underway.step {outputs : List Location} (distinct : (location :: outputs).Nodup)
    {session next : Session OpenFiles} {event : Event} (inner : event.fromOutside = false)
    (underway : Underway location content outputs created session)
    (step : Session.Step OpenFiles.endpoints session event next) :
    Underway location content outputs created next ∧
      next.remaining < session.remaining := by
  obtain ⟨attended, past, feeds, stores⟩ := underway
  have quiet := Event.raisesSignal_of_fromOutside inner
  have fed := step.feeds quiet stores.present feeds
  have stored := step.stores distinct stores
  have fewer := step.remaining_lt inner stores.present stored.present feeds
  exact ⟨⟨step.attended attended, _, fed, stored⟩, fewer⟩

/-- Left alone, the relay reads its file to the end and closes the reader. -/
theorem Prepared.closes
    (prepared : relay.Prepared now tree opened created location content) :
    ((opened.session created now).runToIdle OpenFiles.endpoints).relay.allClosed = true := by
  have attended : (opened.session created now).Attended := by
    intro index reader frame writes found phase
    have member := List.mem_of_getElem? found
    exact (Relay.launch_quiet _ _ _ reader member frame writes phase).elim
  obtain ⟨⟨attended, -⟩, rests⟩ := Session.settle_rests
    (Underway location content opened.outputs created) Session.remaining
    (fun _ _ _ inner underway step => underway.step prepared.distinct inner step)
    ⟨attended, [], prepared.feeds, prepared.stores⟩ prepared.remaining_le
  exact attended.closed_of_rest rests (fun _ => rfl) fun _ => rfl

/-- A relay that is left alone, then signalled and left alone again hands on the
whole file, all of it at the instant of its start. -/
theorem Prepared.delivers_of_run
    (prepared : relay.Prepared now tree opened created location content)
    (built : relay.build tree now = (.ok opened, created)) :
    ∃ outcome final, relay.run tree .lowered now = (.ok outcome, final) ∧
      relay.Delivers now tree opened Counter.reading
        ((RecordFile.records content).map fun frame => (now, frame)) final := by
  have ran : ∃ outcome, relay.run tree .lowered now =
      (.ok outcome,
        ((((opened.session created now).runToIdle OpenFiles.endpoints).apply
          (.setSignal true)).runToIdle OpenFiles.endpoints).outside.tree) := by
    unfold run
    rw [built]
    exact ⟨_, rfl⟩
  obtain ⟨outcome, ran⟩ := ran
  refine ⟨outcome, _, ran, ?_⟩
  obtain ⟨early, inner, first⟩ :=
    Session.steps_runToIdle OpenFiles.endpoints (opened.session created now)
  have closed := prepared.closes
  generalize (opened.session created now).runToIdle OpenFiles.endpoints = rested at *
  obtain ⟨raising, second⟩ :=
    Session.steps_apply OpenFiles.endpoints rested (.setSignal true) rfl
  generalize rested.apply (.setSignal true) = signalled at *
  obtain ⟨late, -, third⟩ := Session.steps_runToIdle OpenFiles.endpoints signalled
  have kept := (second.append third).outside_of_closed closed
  have quiet (event : Event) (member : event ∈ early) : event.raisesSignal = false :=
    Event.raisesSignal_of_fromOutside (inner event member)
  have frames := prepared.handled first quiet closed
  have delivers := prepared.delivers first quiet closed
  have readings : (((opened.session created now).relay.history early).filterMap
        Occurrence.handling?).map Handling.reading =
      (RecordFile.records content).map fun frame => (now, frame) := by
    rw [← frames, List.map_map]
    apply List.map_congr_left
    intro handling handled
    have instant := first.relay.instant inner handled
    exact Prod.ext instant rfl
  rw [kept, ← readings]
  exact delivers

/-- Until the counter wraps, the turn of a frame is its place among the allowed
ones. -/
theorem Delivers.unwrapped {readings : List (Instant × Bytes)} {after : FileTree}
    (delivers : relay.Delivers now tree opened Counter.reading readings after)
    (few : readings.length ≤ 2 ^ 64) :
    relay.Delivers now tree opened id readings after := by
  intro output file named
  obtain ⟨there, found, existing, reads⟩ := delivers output file named
  have allowed := Nat.le_trans
    (Filter.length_allowed_le (relay.settings.relay.newFilter now) readings) few
  rw [Policy.share_reading allowed] at reads
  exact ⟨there, found, existing, reads⟩

end

theorem ofSettings_eq_ok {settings : Settings} {relay : FileRelay}
    (accepted : ofSettings settings = .ok relay) :
    relay.settings = settings ∧ settings.relay.routing.policy = .ok relay.policy := by
  unfold ofSettings at accepted
  split at accepted
  · rename_i policy valid
    cases accepted
    refine ⟨rfl, ?_⟩
    obtain ⟨named, chosen, checked⟩ := bind_eq_ok.mp valid
    split at checked
    · cases checked
    · cases checked
      exact chosen
  · cases accepted

/-- A relay between one input file and any other output files, each of which is
new, empty or ends in a separator: in whatever order its parts took their steps,
if the signal was not raised before the reader had closed, the file of each output
yields its earlier records and then the records of the input that decode, that the
filter allows at the instants of the run, and that the policy sends to this
output.  The relay that is run from its start until it rests does so.  A file of
fewer than `2 ^ 64` bytes cannot bring the counter of turns to wrap. -/
theorem relays_file {settings : Settings} {relay : FileRelay} {tree created : FileTree}
    {now : Instant} {opened : OpenedRelay} {file : FileSettings} {content : Bytes}
    (accepted : ofSettings settings = .ok relay) (single : settings.inputs = [file])
    (built : relay.build tree now = (.ok opened, created))
    (read : tree.read file.path = .ok content)
    (distinct : (opened.inputs ++ opened.outputs).Nodup)
    (framed : ∀ location ∈ opened.outputs,
      RecordFile.EndsInSeparator (tree.contentOrEmpty location)) :
    settings.relay.routing.policy = .ok relay.policy ∧
    (∀ early middle late last,
      Session.Steps OpenFiles.endpoints (opened.session created now) early middle →
      (∀ event ∈ early, event.raisesSignal = false) → middle.relay.allClosed = true →
      Session.Steps OpenFiles.endpoints middle late last →
      let handled := ((opened.session created now).relay.history early).filterMap
        Occurrence.handling?
      handled.map Handling.frame = RecordFile.records content ∧
      relay.Delivers now tree opened Counter.reading (handled.map Handling.reading)
        last.outside.tree ∧
      (content.length < 2 ^ 64 →
        relay.Delivers now tree opened id (handled.map Handling.reading)
          last.outside.tree)) ∧
    ∃ outcome final, relay.run tree .lowered now = (.ok outcome, final) ∧
      let readings := (RecordFile.records content).map fun frame => (now, frame)
      relay.Delivers now tree opened Counter.reading readings final ∧
      (content.length < 2 ^ 64 → relay.Delivers now tree opened id readings final) := by
  obtain ⟨same, policy⟩ := ofSettings_eq_ok accepted
  obtain ⟨location, inputs, present⟩ := build_input built (same ▸ single) read
  obtain ⟨-, opens, assembled⟩ := build_eq_ok built
  rw [inputs] at distinct
  have prepared : relay.Prepared now tree opened created location content :=
    ⟨inputs, by rw [same, single]; rfl, present, opens, assembled, distinct, framed⟩
  have fewRecords (short : content.length < 2 ^ 64) :
      (RecordFile.records content).length ≤ 2 ^ 64 :=
    Nat.le_trans (RecordFile.length_records_le content) (Nat.le_of_lt short)
  refine ⟨policy, ?_, ?_⟩
  · intro early middle late last first quiet closed second handled
    have frames := prepared.handled first quiet closed
    have delivers := prepared.delivers first quiet closed
    rw [second.outside_of_closed closed]
    refine ⟨frames, delivers, ?_⟩
    intro short
    apply delivers.unwrapped
    have count := congrArg List.length frames
    rw [List.length_map] at count ⊢
    rw [count]
    exact fewRecords short
  · obtain ⟨outcome, final, ran, delivers⟩ := prepared.delivers_of_run built
    refine ⟨outcome, final, ran, delivers, ?_⟩
    intro short
    apply delivers.unwrapped
    rw [List.length_map]
    exact fewRecords short

/-- Two outputs in turn: one is new, the other holds a record already.  The last
record of the input lacks its separator, and a malformed one and one that the filter
drops take no turn. -/
theorem relays_file_in_turn :
    let content :=
      [Sample.get 97, [33], Sample.put 98].flatMap RecordFile.stored ++ Sample.get 99
    let settings : Settings :=
      ⟨[⟨"capture", "i"⟩], [⟨"a", "x"⟩, ⟨"b", "y"⟩],
        ⟨⟨["GET"]⟩, ⟨true, false⟩, VerdictSettings.default⟩⟩
    let tree := (FileTree.empty.set ["work", "i"] (.file content)).set ["work", "y"]
      (.file (RecordFile.stored [111]))
    ∃ relay outcome final, ofSettings settings = .ok relay ∧
      relay.run tree .lowered 7 = (.ok outcome, final) ∧
      (∃ location, final.openExisting "x" = .ok location ∧
        OpenFiles.Reads 0 ⟨final, [FileCursor.start location], []⟩ [Sample.get 97]) ∧
      ∃ location, final.openExisting "y" = .ok location ∧
        OpenFiles.Reads 0 ⟨final, [FileCursor.start location], []⟩
          [[111], Sample.get 99] := by
  intro content settings tree
  have accepted : ofSettings settings = .ok ⟨settings, .roundRobin⟩ := by rfl
  have built : build ⟨settings, .roundRobin⟩ tree 7 =
      (.ok ⟨assembly ⟨settings, .roundRobin⟩ 7, [["work", "i"]],
          [["work", "x"], ["work", "y"]]⟩,
        tree.set ["work", "x"] (.file [])) := by rfl
  have read : tree.read "i" = .ok content := by rfl
  have distinct :
      ([["work", "i"]] ++ [["work", "x"], ["work", "y"]] : List Location).Nodup := by
    decide
  have earlier : tree.contentOrEmpty ["work", "x"] = [] ∧
      tree.contentOrEmpty ["work", "y"] = RecordFile.stored [111] := by decide
  have framed : ∀ location ∈ ([["work", "x"], ["work", "y"]] : List Location),
      RecordFile.EndsInSeparator (tree.contentOrEmpty location) := by
    intro location member
    rcases List.mem_pair.mp member with rfl | rfl
    · rw [earlier.1]
      exact RecordFile.endsInSeparator_nil
    · rw [earlier.2]
      exact RecordFile.endsInSeparator_append_stored [] [111]
  have short : content.length < 2 ^ 64 := by decide +kernel
  obtain ⟨-, -, outcome, final, ran, -, delivers⟩ :=
    relays_file accepted rfl built read distinct framed
  have shares :
      RecordFile.records (tree.contentOrEmpty ["work", "x"]) ++
          Policy.share .roundRobin 2 0 id ((settings.relay.newFilter 7).allowed
            ((RecordFile.records content).map fun frame => (7, frame))) = [Sample.get 97] ∧
        RecordFile.records (tree.contentOrEmpty ["work", "y"]) ++
          Policy.share .roundRobin 2 1 id ((settings.relay.newFilter 7).allowed
            ((RecordFile.records content).map fun frame => (7, frame))) =
          [[111], Sample.get 99] := by decide
  obtain ⟨first, foundFirst, openFirst, readsFirst⟩ := delivers short 0 _ rfl
  obtain ⟨second, foundSecond, openSecond, readsSecond⟩ := delivers short 1 _ rfl
  cases foundFirst
  cases foundSecond
  refine ⟨_, outcome, final, accepted, ran, ⟨_, openFirst, ?_⟩, _, openSecond, ?_⟩
  · rw [← shares.1]
    exact readsFirst
  · rw [← shares.2]
    exact readsSecond

end FileRelay

end TrafficRelay
