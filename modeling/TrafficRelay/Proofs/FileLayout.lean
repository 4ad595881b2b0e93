import TrafficRelay.Proofs.FileRoundTrip
import TrafficRelay.Proofs.ReadRecords

/-!
# The layout of a file

Reading a file splits it into records and layout, and nothing is lost: put one
after another, the records with what stands between them make up the file.
Since no record that was read has a separator, the records can be written to
another file and are the same when read from there.
-/

namespace TrafficRelay

namespace RecordFile

/-- A separator without its newline. -/
def IsMark (mark : Bytes) : Prop :=
  mark = separator ∨ mark = separator ++ [Bytes.carriageReturn]

/-- What stands between a record and the separator that ends it: a newline, or
nothing if the record is empty. -/
def IsGap (record gap : Bytes) : Prop :=
  gap = [Bytes.newline] ∨ record = [] ∧ gap = []

/-- The bytes are these records with a separator after each.  The last separator
may lack its newline, and a last record that is not empty may lack the separator. -/
inductive LaidOut : Bytes → List Bytes → Prop where
  | nil : LaidOut [] []
  | rest {record : Bytes} : record ≠ [] → LaidOut record [record]
  | unended {record gap mark : Bytes} :
      IsGap record gap → IsMark mark → LaidOut (record ++ gap ++ mark) [record]
  | cons {record gap mark rest : Bytes} {records : List Bytes} :
      IsGap record gap → IsMark mark → LaidOut rest records →
      LaidOut (record ++ gap ++ mark ++ Bytes.newline :: rest) (record :: records)

theorem IsMark.newline_not_mem {mark : Bytes} (isMark : IsMark mark) :
    Bytes.newline ∉ mark := by
  rcases isMark with rfl | rfl
  · exact newline_not_mem_separator
  · decide

/-- A separator line is a mark, with or without its newline. -/
theorem exists_mark_of_isSeparatorLine {line : Bytes}
    (separates : isSeparatorLine line = true) :
    ∃ mark, IsMark mark ∧ (line = mark ∨ line = mark ++ [Bytes.newline]) := by
  have stripped : isSeparatorLine (stripLast Bytes.newline line ++ [Bytes.newline]) = true := by
    rw [isSeparatorLine, stripLast_append]
    exact separates
  refine ⟨stripLast Bytes.newline line,
    (isSeparatorLine_append_newline _).mp stripped, ?_⟩
  exact (stripLast_eq_or Bytes.newline line).imp_left Eq.symm

/-- Lines that another one follows end in a newline, unless there are none. -/
theorem exists_gap {read lines : List Bytes} {line : Bytes}
    (whole : Bytes.lines (read.reverse ++ line :: lines).flatten =
      read.reverse ++ line :: lines) :
    ∃ record gap, IsGap record gap ∧ read.reverse.flatten = record ++ gap ∧
      stripLast Bytes.newline read.reverse.flatten = record := by
  cases read with
  | nil => exact ⟨[], [], Or.inr ⟨rfl, rfl⟩, rfl, rfl⟩
  | cons last read =>
      rw [List.reverse_cons, List.append_assoc, List.singleton_append] at whole
      have left := Bytes.lines_of_suffix whole
      obtain ⟨text, rfl⟩ := Bytes.ended_of_lines_cons_cons left
      have shape : (List.reverse ((text ++ [Bytes.newline]) :: read)).flatten =
          (read.reverse.flatten ++ text) ++ [Bytes.newline] := by
        simp
      refine ⟨read.reverse.flatten ++ text, [Bytes.newline], Or.inl rfl, shape, ?_⟩
      rw [shape, stripLast_append]

/-- The lines that are left, and those of the record that is being read, are laid
out as the records that are found. -/
theorem laidOut_recordsAfter {read lines : List Bytes}
    (whole : Bytes.lines (read.reverse ++ lines).flatten = read.reverse ++ lines) :
    LaidOut (read.reverse ++ lines).flatten (recordsAfter read lines) := by
  induction lines generalizing read with
  | nil =>
      rw [List.append_nil] at whole ⊢
      cases read with
      | nil => exact .nil
      | cons last read =>
          apply LaidOut.rest
          intro empty
          rw [empty] at whole
          exact List.reverse_ne_nil_iff.mpr (List.cons_ne_nil last read) whole.symm
  | cons line lines induction =>
      rw [recordsAfter]
      split
      · rename_i separates
        obtain ⟨record, gap, isGap, split, stripped⟩ := exists_gap whole
        rw [stripped, List.flatten_append, split]
        obtain ⟨mark, isMark, rfl | rfl⟩ := exists_mark_of_isSeparatorLine separates
        · -- Without its newline, the separator is the last line.
          cases lines with
          | nil =>
              rw [List.flatten_singleton]
              exact .unended isGap isMark
          | cons next others =>
              have left := Bytes.lines_of_suffix whole
              obtain ⟨text, rfl⟩ := Bytes.ended_of_lines_cons_cons left
              exact (isMark.newline_not_mem (by simp)).elim
        · have left : Bytes.lines lines.flatten = lines := by
            exact Bytes.lines_tail (Bytes.lines_of_suffix whole)
          have others := @induction [] left
          rw [List.flatten_cons, List.append_assoc mark, List.singleton_append,
            ← List.append_assoc]
          exact .cons isGap isMark others
      · have same : (line :: read).reverse ++ lines = read.reverse ++ line :: lines := by
          rw [List.reverse_cons, List.append_assoc, List.singleton_append]
        rw [← same] at whole ⊢
        exact induction whole

theorem laidOut_records (content : Bytes) : LaidOut content (records content) := by
  have whole : Bytes.lines (List.reverse [] ++ Bytes.lines content).flatten =
      List.reverse [] ++ Bytes.lines content := by
    rw [List.reverse_nil, List.nil_append, Bytes.lines_flatten]
  have laidOut := laidOut_recordsAfter whole
  rwa [List.reverse_nil, List.nil_append, Bytes.lines_flatten] at laidOut

theorem isSeparatorLine_eq_false_of_mem_records {content record line : Bytes}
    (found : record ∈ records content)
    (member : line ∈ Bytes.lines (record ++ [Bytes.newline])) :
    isSeparatorLine line = false := by
  have none := List.countP_eq_zero.mp (countP_eq_zero_of_mem_records found)
  exact Bool.eq_false_iff.mpr (none line member)

end RecordFile

namespace OpenFiles

/-- The answers to as many calls that read from an input. -/
def answers (files : OpenFiles) (input : Nat) : Nat → List Supply
  | 0 => []
  | calls + 1 => (files.supply input).1 :: (files.supply input).2.answers input calls

/-- An input yields these records and then ends, however often it is asked again. -/
def Yields (files : OpenFiles) (input : Nat) (records : List Bytes) : Prop :=
  ∀ more, files.answers input (records.length + more) =
    records.map (fun record => .item (.frame record)) ++ List.replicate more .ended

theorem yields_records {tree : FileTree} {location : Location} {content : Bytes}
    (present : tree.contentAt location = .ok content) {outputs : List Location}
    {inputs : List FileCursor} {input offset : Nat}
    (opened : inputs[input]? = some ⟨location, offset⟩) :
    Yields ⟨tree, inputs, outputs⟩ input (RecordFile.records (content.drop offset)) := by
  intro more
  -- The content stays while the offset moves, one record at a time.
  generalize left : RecordFile.records (content.drop offset) = records
  induction records generalizing inputs offset with
  | nil =>
      have ended := FileCursor.read_ended ⟨location, offset⟩ present left
      have stays : inputs.set input ⟨location, offset⟩ = inputs := by
        rw [← (List.getElem?_eq_some_iff.mp opened).2, List.set_getElem_self]
      have supplied : supply ⟨tree, inputs, outputs⟩ input =
          (.ended, ⟨tree, inputs, outputs⟩) := by
        rw [supply_eq opened ended, stays]
      rw [List.length_nil, Nat.zero_add, List.map_nil, List.nil_append]
      induction more with
      | zero => rfl
      | succ more again => rw [answers, supplied, again, List.replicate_succ]
  | cons record records induction =>
      obtain ⟨next, read, others⟩ :=
        FileCursor.read_record ⟨location, offset⟩ present left
      have inRange : input < inputs.length := (List.getElem?_eq_some_iff.mp opened).1
      have moved : (inputs.set input ⟨location, next⟩)[input]? =
          some ⟨location, next⟩ := List.getElem?_set_self inRange
      have supplied : supply ⟨tree, inputs, outputs⟩ input =
          (.item (.frame record), ⟨tree, inputs.set input ⟨location, next⟩, outputs⟩) :=
        supply_eq opened read
      rw [List.length_cons, Nat.add_right_comm, answers, supplied,
        induction moved others, List.map_cons, List.cons_append]

/-- Whatever a file holds, reading it yields finitely many records and then ends for
good.  With the separators between them they make up the file, none of them has a
separator, and written to a new file they are read from there as they are. -/
theorem reads_laid_out_records {files : OpenFiles} {input : Nat} {location : Location}
    {content : Bytes}
    (opened : files.inputs[input]? = some (FileCursor.start location))
    (present : files.tree.contentAt location = .ok content) :
    ∃ records,
      files.Yields input records ∧
      RecordFile.LaidOut content records ∧
      (∀ record ∈ records, ∀ line ∈ Bytes.lines (record ++ [Bytes.newline]),
        RecordFile.isSeparatorLine line = false) ∧
      ∀ path other created,
        files.tree.openForAppending path = .ok (other, created) →
        files.tree.entry? other = none →
        ∃ written,
          Writes 0 ⟨created, [], [other]⟩ records ⟨written, [], [other]⟩ ∧
          written.openExisting path = .ok other ∧
          Yields ⟨written, [FileCursor.start other], []⟩ 0 records := by
  refine ⟨RecordFile.records content, yields_records present opened,
    RecordFile.laidOut_records content, ?_, ?_⟩
  · intro record found line member
    exact RecordFile.isSeparatorLine_eq_false_of_mem_records found member
  · intro path other created creates absent
    obtain ⟨located, empty⟩ := FileTree.openForAppending_created creates absent
    have onlyOutput : [other][0]? = some other := rfl
    have onlyInput : [FileCursor.start other][0]? = some ⟨other, 0⟩ := rfl
    obtain ⟨written, writes, holds⟩ :=
      writes_of_holdsFile empty [] onlyOutput (RecordFile.records content)
    have noSeparator := RecordFile.separatorLines_of_records
      (fun (record : Bytes) (found : record ∈ RecordFile.records content) => found)
    have yields : Yields ⟨written, [FileCursor.start other], []⟩ 0 _ :=
      yields_records holds.content onlyInput
    rw [List.drop_zero, List.nil_append,
      RecordFile.records_flatMap_stored_of_noSeparator noSeparator] at yields
    exact ⟨written, writes, holds.openExisting located, yields⟩

/-- A separator with a carriage return, an empty record, and a last record that no
separator ends. -/
theorem reads_laid_out_records_mixed :
    let content := [49, 10] ++ RecordFile.separator ++ [13, 10] ++
      RecordFile.separator ++ [10, 50]
    let tree := FileTree.empty.set ["work", "g"] (.file content)
    let files : OpenFiles := ⟨tree, [FileCursor.start ["work", "g"]], []⟩
    files.answers 0 5 =
        [.item (.frame [49]), .item (.frame []), .item (.frame [50]), .ended, .ended] ∧
      ∃ records written,
        files.Yields 0 records ∧ RecordFile.LaidOut content records ∧
        Writes 0 ⟨tree.set ["work", "f"] (.file []), [], [["work", "f"]]⟩ records
          ⟨written, [], [["work", "f"]]⟩ ∧
        Yields ⟨written, [FileCursor.start ["work", "f"]], []⟩ 0 records := by
  intro content tree files
  have creates : tree.openForAppending "f" =
      .ok (["work", "f"], tree.set ["work", "f"] (.file [])) := by rfl
  have opened : files.inputs[0]? = some (FileCursor.start ["work", "g"]) := rfl
  have present : files.tree.contentAt ["work", "g"] = .ok content := rfl
  obtain ⟨records, yields, laidOut, -, others⟩ := reads_laid_out_records opened present
  obtain ⟨written, writes, -, again⟩ := others "f" _ _ creates rfl
  exact ⟨by decide, records, written, yields, laidOut, writes, again⟩

end OpenFiles

end TrafficRelay
