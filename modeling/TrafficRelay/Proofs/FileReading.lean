import TrafficRelay.Proofs.FileRoundTrip
import TrafficRelay.Proofs.StoppedReaders

/-!
# Reading a file to its end

A session with a single reader takes the records of its file one after another:
what the reader has taken, what waits in its inlet and what has yet to be read
are together the records of the file, in order, until nothing is left and the
reader leaves.  While the file stays as it is, every step brings that nearer.
-/

namespace TrafficRelay

namespace Reader

/-- The items that a reader has yet to take, if these records have yet to be
read. -/
def coming (unread : List Bytes) (reader : Reader) : List Item :=
  reader.inlet.queue ++ if reader.inlet.senders = 0 then [] else unread.map Item.frame

/-- A reader that takes nothing any more has left nothing behind. -/
def Exhausts (reader : Reader) : Prop :=
  reader.isActive = false → reader.inlet = ⟨[], 0⟩

end Reader

namespace Relay

variable {relay next : Relay} {event : Event} {reader : Reader}

theorem eq_of_alone (alone : relay.readers = [reader]) {index : Nat} {other : Reader}
    (found : relay.readers[index]? = some other) : index = 0 ∧ other = reader := by
  rw [alone, List.getElem?_singleton] at found
  split at found
  · rename_i first
    exact ⟨first, (Option.some.inj found).symm⟩
  · cases found

theorem readers_setReader_alone {other : Relay} (alone : other.readers = [reader])
    (changed : Reader) : (other.setReader 0 changed).readers = [changed] := by
  rw [setReader_readers, alone]
  rfl

/-- Unless the signal has been raised, a reader leaves only when its inlet has
ended or yields a read error. -/
theorem Step.ofAlone (step : Step relay event next) (notFed : event.feeds = false)
    (lowered : relay.signal.isRaised = false) (alone : relay.readers = [reader])
    (frames : ∀ item ∈ reader.inlet.queue, ∃ frame, item = .frame frame)
    (exhausts : reader.Exhausts) :
    ∃ changed, next.readers = [changed] ∧ changed.Exhausts ∧
      changed.inlet.senders = reader.inlet.senders := by
  cases step with
  | @takeFrame index other frame inlet found idle down read =>
      obtain ⟨rfl, rfl⟩ := eq_of_alone alone found
      refine ⟨_, readers_setReader_alone (by simpa using alone) _, ?_,
        Inlet.senders_of_read read⟩
      intro inactive
      rw [Reader.isActive_phaseAfter] at inactive
      cases inactive
  | takeFailure found idle down read =>
      obtain ⟨rfl, rfl⟩ := eq_of_alone alone found
      obtain ⟨frame, same⟩ := frames _ (queue_of_read read ▸ List.mem_cons_self)
      cases same
  | write found phase pending =>
      obtain ⟨rfl, rfl⟩ := eq_of_alone alone found
      refine ⟨_, readers_setReader_alone alone _, ?_, rfl⟩
      intro inactive
      cases inactive
  | land found phase finished =>
      obtain ⟨rfl, rfl⟩ := eq_of_alone alone found
      refine ⟨_, readers_setReader_alone (by simpa using alone) _, ?_, rfl⟩
      intro inactive
      cases inactive
  | leave found idle due =>
      obtain ⟨rfl, rfl⟩ := eq_of_alone alone found
      refine ⟨_, readers_setReader_alone alone _, ?_, rfl⟩
      intro inactive
      rcases due with raised | ended
      · rw [lowered] at raised
        cases raised
      · exact Inlet.eq_of_ended ended
  | close found leaving =>
      obtain ⟨rfl, rfl⟩ := eq_of_alone alone found
      refine ⟨_, readers_setReader_alone (by simpa using alone) _, ?_, rfl⟩
      intro inactive
      apply exhausts
      rw [Reader.isActive, leaving]
  | send found accepts => cases notFed
  | sendLost refused => cases notFed
  | endInput found => cases notFed
  | endNothing missing => cases notFed
  | _ => exact ⟨reader, alone, exhausts, rfl⟩

theorem Step.lowered (step : Step relay event next) (quiet : event.raisesSignal = false)
    (lowered : relay.signal.isRaised = false) : next.signal.isRaised = false := by
  cases step with
  | takeFrame found idle down read => simpa [setReader, report_eq, decideFrame] using lowered
  | takeFailure found idle down read => simpa [setReader, report_eq] using lowered
  | land found phase finished => simpa [setReader, report_eq] using lowered
  | setSignal heard =>
      obtain rfl := quiet
      exact (Bool.or_eq_false_iff.mp lowered).2
  | dropSignal => cases quiet
  | _ => exact lowered

/-- A reader that waits for an item receives it. -/
theorem readers_send_alone (alone : relay.readers = [reader]) (idle : reader.phase = .idle)
    (pending : reader.inlet.read = .pending) (item : Item) :
    (relay.send 0 item).readers =
      [{ reader with inlet := ⟨[item], reader.inlet.senders⟩ }] := by
  obtain ⟨empty, connected⟩ := Inlet.queue_of_pending pending
  have accepts : reader.accepts = true := by
    simp [Reader.accepts, Reader.isActive, idle, connected]
  have pushed : reader.inlet.push item = ⟨[item], reader.inlet.senders⟩ := by
    rw [Inlet.push, if_neg connected, empty]
    rfl
  have found : relay.readers[0]? = some reader := by
    rw [alone]
    rfl
  simp only [send, found, accepts, if_true, pushed]
  exact readers_setReader_alone alone _

theorem readers_endInput_alone (alone : relay.readers = [reader])
    (pending : reader.inlet.read = .pending) :
    (relay.endInput 0).readers = [{ reader with inlet := ⟨[], 0⟩ }] := by
  have closed : reader.inlet.close = ⟨[], 0⟩ := by
    rw [Inlet.close, (Inlet.queue_of_pending pending).1]
  have found : relay.readers[0]? = some reader := by
    rw [alone]
    rfl
  simp only [endInput, found, closed]
  exact readers_setReader_alone alone _

theorem taken?_of_feeds (fed : event.feeds = true) (index : Nat) :
    (relay.occurrences event).filterMap (Occurrence.taken? index) = [] := by
  apply List.filterMap_eq_nil_iff.mpr
  intro occurrence member
  rcases occurrences_cases member with
    ⟨_, _, rfl, rfl⟩ | ⟨_, _, _, _, rfl, rfl⟩ | ⟨_, _, rfl, rfl⟩
  · cases fed
  · rfl
  · rfl

theorem sent?_of_not_feeds (notFed : event.feeds = false) (index : Nat) :
    (relay.occurrences event).filterMap (Occurrence.sent? index) = [] := by
  apply List.filterMap_eq_nil_iff.mpr
  intro occurrence member
  rcases occurrences_cases member with
    ⟨_, item, rfl, rfl⟩ | ⟨_, _, _, _, rfl, rfl⟩ | ⟨_, _, rfl, rfl⟩
  · cases item <;> rfl
  · rfl
  · cases notFed

end Relay

namespace OpenFiles

/-- What a single input answers, while its file stays as it is. -/
theorem supply_cases {files : OpenFiles} {location : Location} {offset : Nat}
    {content : Bytes} (single : files.inputs = [⟨location, offset⟩])
    (present : files.tree.contentAt location = .ok content) :
    RecordFile.records (content.drop offset) = [] ∧ files.supply 0 = (.ended, files) ∨
      ∃ record after,
        RecordFile.records (content.drop offset) =
          record :: RecordFile.records (content.drop after) ∧
        files.supply 0 =
          (.item (.frame record), { files with inputs := [⟨location, after⟩] }) := by
  have opened : files.inputs[0]? = some ⟨location, offset⟩ := by
    rw [single]
    rfl
  cases left : RecordFile.records (content.drop offset) with
  | nil =>
      have ended := FileCursor.read_ended ⟨location, offset⟩ present left
      have answer := supply_eq opened ended
      have same : files.inputs.set 0 ⟨location, offset⟩ = files.inputs := by
        rw [single]
        rfl
      rw [same] at answer
      exact Or.inl ⟨rfl, answer⟩
  | cons record records =>
      obtain ⟨after, read, others⟩ :=
        FileCursor.read_record ⟨location, offset⟩ present left
      have answer := supply_eq opened read
      have moved : files.inputs.set 0 ⟨location, after⟩ = [⟨location, after⟩] := by
        rw [single]
        rfl
      rw [moved] at answer
      exact Or.inr ⟨record, after, by rw [others], answer⟩

theorem write_inputs (files : OpenFiles) (output : Nat) (frame : Bytes) :
    (files.write output frame).2.inputs = files.inputs := by
  unfold write
  split
  · rfl
  · split <;> rfl

end OpenFiles

namespace Session

/-- A session that has a single reader, which stands at this offset of its file. -/
structure ReadsAt (location : Location) (reader : Reader) (offset : Nat)
    (session : Session OpenFiles) : Prop where
  alone : session.relay.readers = [reader]
  cursor : session.outside.inputs = [⟨location, offset⟩]

/-- What a step does to a single reader and its cursor. -/
inductive Advance (location : Location) (content : Bytes) (reader : Reader) (offset : Nat)
    (session : Session OpenFiles) : Event → Session OpenFiles → Prop where
  | inner {event : Event} {next : Session OpenFiles} {changed : Reader} :
      event.feeds = false → next.ReadsAt location changed offset →
      changed.Exhausts → changed.inlet.senders = reader.inlet.senders →
      Advance location content reader offset session event next
  | item {record : Bytes} {next : Session OpenFiles} {after : Nat} :
      reader.phase = .idle → reader.inlet.read = .pending →
      RecordFile.records (content.drop offset) =
        record :: RecordFile.records (content.drop after) →
      next.relay = session.relay.send 0 (.frame record) →
      next.outside.tree = session.outside.tree →
      next.ReadsAt location
        { reader with inlet := ⟨[.frame record], reader.inlet.senders⟩ } after →
      Advance location content reader offset session (.send 0 (.frame record)) next
  | ended {next : Session OpenFiles} :
      reader.inlet.read = .pending →
      RecordFile.records (content.drop offset) = [] →
      next.relay = session.relay.endInput 0 →
      next.outside = session.outside →
      next.ReadsAt location { reader with inlet := ⟨[], 0⟩ } offset →
      Advance location content reader offset session (.endInput 0) next

section

variable {location : Location} {content : Bytes} {reader : Reader} {offset : Nat}
  {session next : Session OpenFiles} {event : Event}

theorem Step.advance (step : Step OpenFiles.endpoints session event next)
    (reads : session.ReadsAt location reader offset)
    (present : session.outside.tree.contentAt location = .ok content)
    (lowered : session.relay.signal.isRaised = false)
    (frames : ∀ item ∈ reader.inlet.queue, ∃ frame, item = .frame frame)
    (exhausts : reader.Exhausts) :
    Advance location content reader offset session event next := by
  cases step with
  | own inner step =>
      have notFed := Event.feeds_of_atEnd inner
      obtain ⟨changed, alone, still, senders⟩ :=
        step.ofAlone notFed lowered reads.alone frames exhausts
      exact .inner notFed ⟨alone, reads.cursor⟩ still senders
  | @write index output refusal outside other frame writes relay found phase ready answer
      step =>
      obtain ⟨changed, alone, still, senders⟩ :=
        step.ofAlone rfl lowered reads.alone frames exhausts
      have kept := OpenFiles.write_inputs session.outside output frame
      have answered : session.outside.write output frame = (refusal, outside) := answer
      rw [answered, reads.cursor] at kept
      exact .inner rfl ⟨alone, kept⟩ still senders
  | supply found idle pending down supplies answer step =>
      obtain ⟨rfl, rfl⟩ := Relay.eq_of_alone reads.alone found
      rcases OpenFiles.supply_cases reads.cursor present with
        ⟨nothing, ended⟩ | ⟨record, after, left, supplied⟩
      · obtain ⟨rfl, rfl⟩ := Prod.mk.inj (answer.symm.trans ended)
        obtain rfl := Option.some.inj (Relay.step?_eq_some_iff.mpr step)
        exact .ended pending nothing rfl rfl
          ⟨Relay.readers_endInput_alone reads.alone pending, reads.cursor⟩
      · obtain ⟨rfl, rfl⟩ := Prod.mk.inj (answer.symm.trans supplied)
        obtain rfl := Option.some.inj (Relay.step?_eq_some_iff.mpr step)
        exact .item idle pending left rfl rfl
          ⟨Relay.readers_send_alone reads.alone idle pending _, rfl⟩

/-- The items taken in the past and those that are coming are the records of the
file. -/
structure Feeds (location : Location) (content : Bytes) (past : List Occurrence)
    (session : Session OpenFiles) : Prop where
  lowered : session.relay.signal.isRaised = false
  account : ∃ reader offset, session.ReadsAt location reader offset ∧ reader.Exhausts ∧
    past.filterMap (Occurrence.taken? 0) ++
        reader.coming (RecordFile.records (content.drop offset)) =
      (RecordFile.records content).map Item.frame

theorem coming_frames {past : List Item} {unread records : List Bytes}
    (account : past ++ reader.coming unread = records.map Item.frame) :
    ∀ item ∈ reader.inlet.queue, ∃ frame, item = .frame frame := by
  intro item queued
  have member : item ∈ past ++ reader.coming unread :=
    List.mem_append_right past (List.mem_append_left _ queued)
  rw [account] at member
  obtain ⟨frame, -, same⟩ := List.mem_map.mp member
  exact ⟨frame, same.symm⟩

theorem Step.feeds {past : List Occurrence}
    (step : Step OpenFiles.endpoints session event next)
    (quiet : event.raisesSignal = false)
    (present : session.outside.tree.contentAt location = .ok content)
    (feeds : session.Feeds location content past) :
    next.Feeds location content (past ++ session.relay.occurrences event) := by
  obtain ⟨lowered, reader, offset, reads, exhausts, account⟩ := feeds
  refine ⟨step.relay.lowered quiet lowered, ?_⟩
  have advance := step.advance reads present lowered (coming_frames account) exhausts
  rw [List.filterMap_append, ← account]
  cases advance with
  | @inner event next changed notFed moved still senders =>
      have passed := step.relay.held (Relay.carries_items 0)
      have before : session.relay.held Reader.items 0 = reader.inlet.queue := by
        simp [Relay.held, reads.alone, Reader.items]
      have after : next.relay.held Reader.items 0 = changed.inlet.queue := by
        simp [Relay.held, moved.alone, Reader.items]
      rw [before, after, Relay.sent?_of_not_feeds notFed, List.append_nil] at passed
      refine ⟨changed, offset, moved, still, ?_⟩
      simp only [Reader.coming, passed, senders, List.append_assoc]
  | @item record next after idle pending left sent kept moved =>
      obtain ⟨empty, connected⟩ := Inlet.queue_of_pending pending
      refine ⟨_, after, moved, ?_, ?_⟩
      · intro inactive
        simp [Reader.isActive, idle] at inactive
      · rw [Relay.taken?_of_feeds rfl]
        simp [Reader.coming, empty, connected, left]
  | ended pending left closed kept moved =>
      obtain ⟨empty, connected⟩ := Inlet.queue_of_pending pending
      refine ⟨_, offset, moved, fun _ => rfl, ?_⟩
      rw [Relay.taken?_of_feeds rfl]
      simp [Reader.coming, empty, left]

/-- Once the reader is closed, it has taken every record. -/
theorem Feeds.taken {past : List Occurrence}
    (feeds : session.Feeds location content past)
    (closed : session.relay.allClosed = true) :
    past.filterMap (Occurrence.taken? 0) =
      (RecordFile.records content).map Item.frame := by
  obtain ⟨-, reader, offset, reads, exhausts, account⟩ := feeds
  have phase : reader.phase = .closed := by
    have all := List.all_eq_true.mp closed reader (by simp [reads.alone])
    exact of_decide_eq_true all
  have inactive : reader.isActive = false := by rw [Reader.isActive, phase]
  rw [← account, Reader.coming, exhausts inactive]
  simp

/-- A bound on the steps that the session makes by itself. -/
def remaining (session : Session OpenFiles) : Nat :=
  session.relay.work +
    session.outside.unreadCount * (session.relay.outputs.length + 4) +
    session.relay.readers.countP fun reader => reader.inlet.senders ≠ 0

theorem ReadsAt.unreadCount (reads : session.ReadsAt location reader offset)
    (present : session.outside.tree.contentAt location = .ok content) :
    session.outside.unreadCount = (RecordFile.records (content.drop offset)).length := by
  simp [OpenFiles.unreadCount, reads.cursor, FileCursor.unreadCount, present]

theorem Step.remaining_lt {past : List Occurrence}
    (step : Step OpenFiles.endpoints session event next)
    (inner : event.fromOutside = false)
    (present : session.outside.tree.contentAt location = .ok content)
    (still : next.outside.tree.contentAt location = .ok content)
    (feeds : session.Feeds location content past) :
    next.remaining < session.remaining := by
  obtain ⟨lowered, reader, offset, reads, exhausts, account⟩ := feeds
  have advance := step.advance reads present lowered (coming_frames account) exhausts
  have outputs := step.relay.outputs
  have unread := reads.unreadCount present
  unfold remaining
  cases advance with
  | inner notFed moved exhausted senders =>
      have less := step.relay.work_lt inner notFed
      rw [outputs, unread, moved.unreadCount still, reads.alone, moved.alone]
      simp only [List.countP_singleton, senders]
      omega
  | @item record next after idle pending left sent kept moved =>
      have more := Relay.work_send_le session.relay 0 (.frame record)
      rw [outputs, unread, moved.unreadCount still, reads.alone, moved.alone, left, sent,
        List.length_cons, Nat.succ_mul]
      simp only [List.countP_singleton]
      omega
  | ended pending left closed kept moved =>
      have same := Relay.work_endInput session.relay 0
      have connected := (Inlet.queue_of_pending pending).2
      rw [outputs, unread, moved.unreadCount still, reads.alone, moved.alone, closed, same]
      simp [connected]

end

end Session

end TrafficRelay
