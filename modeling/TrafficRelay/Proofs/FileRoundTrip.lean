import TrafficRelay.OpenFiles
import TrafficRelay.Proofs.StoredRecords
import TrafficRelay.Proofs.TreeFiles

/-!
# Reading back what was written

An output appends its frames to a file that did not exist before, and an input
opens that file and reads until it ends.  `Writes` and `Reads` follow the two
one call at a time.  The records that come back are one for each frame and one
more for each separator line in a frame.
-/

namespace TrafficRelay

namespace RecordFile

theorem next?_suffix {lines rest : List Bytes} {record : Bytes}
    (found : next? lines = some (record, rest)) : ∃ read, lines = read ++ rest := by
  simp only [next?] at found
  split at found
  · rename_i separator others cut
    cases found
    refine ⟨(lines.takeWhile fun line => !isSeparatorLine line) ++ [separator], ?_⟩
    rw [List.append_assoc, List.singleton_append, ← cut, List.takeWhile_append_dropWhile]
  · split at found
    · cases found
    · cases found
      exact ⟨lines, (List.append_nil lines).symm⟩

end RecordFile

namespace FileCursor

variable (cursor : FileCursor) {tree : FileTree} {content : Bytes}

theorem read_ended (present : tree.contentAt cursor.location = .ok content)
    (left : RecordFile.records (content.drop cursor.offset) = []) :
    cursor.read tree = (.ended, cursor) := by
  unfold RecordFile.records at left
  rw [RecordFile.recordsAfter_nil_eq] at left
  split at left
  · rename_i finished
    simp only [read, present, finished]
  · cases left

theorem read_record {record : Bytes} {records : List Bytes}
    (present : tree.contentAt cursor.location = .ok content)
    (left : RecordFile.records (content.drop cursor.offset) = record :: records) :
    ∃ offset, cursor.read tree = (.item (.frame record), { cursor with offset }) ∧
      RecordFile.records (content.drop offset) = records := by
  unfold RecordFile.records at left
  rw [RecordFile.recordsAfter_nil_eq] at left
  split at left
  · cases left
  · rename_i next rest found
    obtain ⟨rfl, others⟩ := List.cons.inj left
    obtain ⟨passed, cut⟩ := RecordFile.next?_suffix found
    have split : content =
        (content.take cursor.offset ++ passed.flatten) ++ rest.flatten := by
      have whole := congrArg List.flatten cut
      rw [Bytes.lines_flatten, List.flatten_append] at whole
      rw [List.append_assoc, ← whole, List.take_append_drop]
    refine ⟨content.length - rest.flatten.length, ?_, ?_⟩
    · simp only [read, present, found]
    · have remaining :
          content.drop (content.length - rest.flatten.length) = rest.flatten := by
        rw [split, List.length_append, Nat.add_sub_cancel, List.drop_left]
      rw [remaining, RecordFile.records, Bytes.lines_of_suffix cut, others]

end FileCursor

namespace OpenFiles

/-- An output accepts these frames, one after another. -/
inductive Writes (output : Nat) : OpenFiles → List Bytes → OpenFiles → Prop where
  | done (files : OpenFiles) : Writes output files [] files
  | frame {files next last : OpenFiles} {frame : Bytes} {frames : List Bytes} :
      files.write output frame = (none, next) →
      Writes output next frames last →
      Writes output files (frame :: frames) last

/-- An input yields these records, one after another, and then ends. -/
inductive Reads (input : Nat) : OpenFiles → List Bytes → Prop where
  | ended {files next : OpenFiles} :
      files.supply input = (.ended, next) → Reads input files []
  | record {files next : OpenFiles} {record : Bytes} {records : List Bytes} :
      files.supply input = (.item (.frame record), next) →
      Reads input next records →
      Reads input files (record :: records)

theorem writes_of_holdsFile {before tree : FileTree} {location : Location}
    {content : Bytes} (holds : before.HoldsFile location content tree)
    (inputs : List FileCursor) {outputs : List Location} {output : Nat}
    (opened : outputs[output]? = some location) (frames : List Bytes) :
    ∃ written,
      Writes output ⟨tree, inputs, outputs⟩ frames ⟨written, inputs, outputs⟩ ∧
      before.HoldsFile location (content ++ frames.flatMap RecordFile.stored)
        written := by
  induction frames generalizing tree content with
  | nil =>
      refine ⟨tree, .done _, ?_⟩
      simpa using holds
  | cons frame frames induction =>
      obtain ⟨next, appended, holdsNext⟩ :=
        holds.appendAt (RecordFile.stored frame)
      obtain ⟨written, others, holdsAll⟩ := induction holdsNext
      refine ⟨written, .frame ?_ others, ?_⟩
      · simp only [write, opened, appended]
      · rw [List.flatMap_cons, ← List.append_assoc]
        exact holdsAll

theorem supply_eq {files : OpenFiles} {input : Nat} {cursor next : FileCursor}
    {supply : Supply} (opened : files.inputs[input]? = some cursor)
    (read : cursor.read files.tree = (supply, next)) :
    files.supply input =
      (supply, { files with inputs := files.inputs.set input next }) := by
  simp only [OpenFiles.supply, opened, read]

/-- What an input reads, from where it stands to the end. -/
theorem reads_of_contentAt {tree : FileTree} {location : Location} {content : Bytes}
    (present : tree.contentAt location = .ok content) {outputs : List Location}
    {inputs : List FileCursor} {input offset : Nat}
    (opened : inputs[input]? = some ⟨location, offset⟩) :
    Reads input ⟨tree, inputs, outputs⟩
      (RecordFile.records (content.drop offset)) := by
  -- The content stays while the offset moves, one record at a time.
  generalize left : RecordFile.records (content.drop offset) = records
  induction records generalizing inputs offset with
  | nil =>
      have ended := FileCursor.read_ended ⟨location, offset⟩ present left
      exact .ended (supply_eq opened ended)
  | cons record records induction =>
      obtain ⟨next, read, others⟩ :=
        FileCursor.read_record ⟨location, offset⟩ present left
      have inRange : input < inputs.length := (List.getElem?_eq_some_iff.mp opened).1
      have moved : (inputs.set input ⟨location, next⟩)[input]? =
          some ⟨location, next⟩ := List.getElem?_set_self inRange
      exact .record (supply_eq opened read) (induction moved others)

/-- Frames that are written to a new file, read back until the file ends. -/
theorem reads_written_frames {tree created : FileTree} {path : String}
    {location : Location}
    (opened : tree.openForAppending path = .ok (location, created))
    (absent : tree.entry? location = none) (frames : List Bytes) :
    ∃ written records,
      Writes 0 ⟨created, [], [location]⟩ frames ⟨written, [], [location]⟩ ∧
      written.openExisting path = .ok location ∧
      Reads 0 ⟨written, [FileCursor.start location], []⟩ records ∧
      records.length = frames.length + RecordFile.separatorLines frames ∧
      (records = frames ↔ RecordFile.separatorLines frames = 0) := by
  obtain ⟨located, empty⟩ := FileTree.openForAppending_created opened absent
  have onlyOutput : [location][0]? = some location := rfl
  have onlyInput :
      [FileCursor.start location][0]? = some ⟨location, 0⟩ := rfl
  obtain ⟨written, writes, holds⟩ := writes_of_holdsFile empty [] onlyOutput frames
  rw [List.nil_append] at holds
  refine ⟨written, RecordFile.records (frames.flatMap RecordFile.stored), writes,
    holds.openExisting located, ?_,
    RecordFile.length_records_flatMap_stored frames,
    RecordFile.records_flatMap_stored_eq_iff frames⟩
  exact reads_of_contentAt holds.content onlyInput

/-- A frame that is a separator itself comes back as two records. -/
theorem reads_written_frames_separator :
    ∃ written records,
      Writes 0 ⟨FileTree.empty.set ["work", "f"] (.file []), [], [["work", "f"]]⟩
        [RecordFile.separator, [], [49]] ⟨written, [], [["work", "f"]]⟩ ∧
      Reads 0 ⟨written, [FileCursor.start ["work", "f"]], []⟩ records ∧
      records.length = 4 ∧ records ≠ [RecordFile.separator, [], [49]] := by
  have opened : FileTree.empty.openForAppending "f" =
      .ok (["work", "f"], FileTree.empty.set ["work", "f"] (.file [])) := by rfl
  have separators :
      RecordFile.separatorLines [RecordFile.separator, [], [49]] = 1 := by decide
  obtain ⟨written, records, writes, -, reads, count, same⟩ :=
    reads_written_frames opened rfl [RecordFile.separator, [], [49]]
  rw [separators] at count same
  exact ⟨written, records, writes, reads, count, fun equal => by simpa using same.mp equal⟩

end OpenFiles

end TrafficRelay
