import TrafficRelay.Proofs.Lines
import TrafficRelay.RecordFile

/-!
# Records stored in a file

A stored record is followed by a newline and a separator line, so its lines are
those of the record with a newline, then the separator.  A reader stops at that
separator, and before it at every line of the record that passes for one.
-/

namespace TrafficRelay

namespace RecordFile

theorem newline_not_mem_separator : Bytes.newline ∉ separator := by decide

theorem carriageReturn_not_mem_separator : Bytes.carriageReturn ∉ separator := by
  decide

@[simp] theorem stripLast_append (byte : UInt8) (bytes : Bytes) :
    stripLast byte (bytes ++ [byte]) = bytes := by
  simp [stripLast]

theorem stripLast_of_not_mem {byte : UInt8} {bytes : Bytes} (absent : byte ∉ bytes) :
    stripLast byte bytes = bytes := by
  unfold stripLast
  rw [if_neg]
  intro last
  exact absent (List.mem_of_getLast? last)

/-- The lines that a record takes in a file, where a newline follows it. -/
def contentLines (record : Bytes) : List Bytes :=
  Bytes.lines (record ++ [Bytes.newline])

/-- How many lines of these records are the separator, whatever their line end. -/
def separatorLines (records : List Bytes) : Nat :=
  (records.flatMap contentLines).countP fun line =>
    line = separator ++ [Bytes.newline] ∨
      line = separator ++ [Bytes.carriageReturn, Bytes.newline]

theorem isSeparatorLine_append_newline (content : Bytes) :
    isSeparatorLine (content ++ [Bytes.newline]) = true ↔
      content = separator ∨ content = separator ++ [Bytes.carriageReturn] := by
  simp only [isSeparatorLine, stripLast_append, decide_eq_true_eq]
  constructor
  · intro stripped
    unfold stripLast at stripped
    split at stripped
    · rename_i last
      obtain ⟨front, rfl⟩ := List.getLast?_eq_some_iff.mp last
      rw [List.dropLast_concat] at stripped
      exact Or.inr (by rw [stripped])
    · exact Or.inl stripped
  · rintro (rfl | rfl)
    · exact stripLast_of_not_mem carriageReturn_not_mem_separator
    · exact stripLast_append _ _

theorem separatorLines_eq (records : List Bytes) :
    separatorLines records = (records.flatMap contentLines).countP isSeparatorLine := by
  apply List.countP_congr
  intro line member
  obtain ⟨record, -, inRecord⟩ := List.mem_flatMap.mp member
  obtain ⟨content, -, rfl⟩ := Bytes.mem_lines_append_newline inRecord
  have otherEnd : separator ++ [Bytes.carriageReturn, Bytes.newline] =
      (separator ++ [Bytes.carriageReturn]) ++ [Bytes.newline] := by simp
  rw [isSeparatorLine_append_newline, otherEnd, decide_eq_true_eq,
    List.append_left_inj, List.append_left_inj]

theorem separatorLines_cons (record : Bytes) (records : List Bytes) :
    separatorLines (record :: records) =
      (contentLines record).countP isSeparatorLine + separatorLines records := by
  rw [separatorLines_eq, separatorLines_eq, List.flatMap_cons, List.countP_append]

theorem lines_stored_append (record rest : Bytes) :
    Bytes.lines (stored record ++ rest) =
      contentLines record ++ (separator ++ [Bytes.newline]) :: Bytes.lines rest := by
  have shape : stored record ++ rest =
      record ++ Bytes.newline :: (separator ++ Bytes.newline :: rest) := by
    simp [stored]
  rw [shape, Bytes.lines_append_newline, Bytes.lines_append_newline separator,
    Bytes.lines_of_newline_not_mem newline_not_mem_separator,
    List.singleton_append, contentLines]

theorem lines_stored (record : Bytes) :
    Bytes.lines (stored record) =
      contentLines record ++ [separator ++ [Bytes.newline]] := by
  have alone := lines_stored_append record []
  rwa [List.append_nil, Bytes.lines_nil] at alone

/-- A separator ends the records before it. -/
theorem recordsAfter_append_separator (read lines : List Bytes) {separator : Bytes}
    (separates : isSeparatorLine separator = true) (rest : List Bytes) :
    recordsAfter read (lines ++ separator :: rest) =
      recordsAfter read (lines ++ [separator]) ++ recordsAfter [] rest := by
  induction lines generalizing read with
  | nil => simp [recordsAfter, separates]
  | cons line lines induction =>
      cases found : isSeparatorLine line <;>
        simp [recordsAfter, found, induction]

theorem length_recordsAfter_separator (read lines : List Bytes) {separator : Bytes}
    (separates : isSeparatorLine separator = true) :
    (recordsAfter read (lines ++ [separator])).length =
      lines.countP isSeparatorLine + 1 := by
  induction lines generalizing read with
  | nil => simp [recordsAfter, separates]
  | cons line lines induction =>
      cases found : isSeparatorLine line <;>
        simp [recordsAfter, found, induction]

theorem recordsAfter_of_noSeparator (read : List Bytes) {lines : List Bytes}
    {separator : Bytes} (none : lines.countP isSeparatorLine = 0)
    (separates : isSeparatorLine separator = true) :
    recordsAfter read (lines ++ [separator]) =
      [stripLast Bytes.newline (read.reverse ++ lines).flatten] := by
  induction lines generalizing read with
  | nil => simp [recordsAfter, separates]
  | cons line lines induction =>
      cases found : isSeparatorLine line with
      | true => simp [found] at none
      | false =>
          have tail : lines.countP isSeparatorLine = 0 := by
            simpa [found] using none
          simp [recordsAfter, found, induction _ tail]

theorem isSeparatorLine_separator :
    isSeparatorLine (separator ++ [Bytes.newline]) = true :=
  (isSeparatorLine_append_newline separator).mpr (Or.inl rfl)

/-- Reading a stored record and going on with what follows it. -/
theorem records_stored_append (record rest : Bytes) :
    records (stored record ++ rest) =
      records (stored record) ++ records rest := by
  rw [records, records, records, lines_stored_append, lines_stored,
    recordsAfter_append_separator _ _ isSeparatorLine_separator]

theorem length_records_stored (record : Bytes) :
    (records (stored record)).length =
      (contentLines record).countP isSeparatorLine + 1 := by
  rw [records, lines_stored]
  exact length_recordsAfter_separator _ _ isSeparatorLine_separator

theorem records_stored_of_noSeparator {record : Bytes}
    (none : (contentLines record).countP isSeparatorLine = 0) :
    records (stored record) = [record] := by
  rw [records, lines_stored,
    recordsAfter_of_noSeparator [] none isSeparatorLine_separator]
  simp [contentLines]

/-- Each stored record is read back as one record, and one more for each
separator in it. -/
theorem length_records_flatMap_stored (frames : List Bytes) :
    (records (frames.flatMap stored)).length =
      frames.length + separatorLines frames := by
  induction frames with
  | nil => rfl
  | cons frame frames induction =>
      rw [List.flatMap_cons, records_stored_append, List.length_append,
        length_records_stored, induction, List.length_cons, separatorLines_cons]
      omega

theorem records_flatMap_stored_of_noSeparator {frames : List Bytes}
    (none : separatorLines frames = 0) : records (frames.flatMap stored) = frames := by
  induction frames with
  | nil => rfl
  | cons frame frames induction =>
      rw [separatorLines_cons] at none
      obtain ⟨noneHere, noneLater⟩ := Nat.add_eq_zero_iff.mp none
      have first := records_stored_of_noSeparator noneHere
      have others := induction noneLater
      rw [List.flatMap_cons, records_stored_append, first, others]
      rfl

theorem records_flatMap_stored_eq_iff (frames : List Bytes) :
    records (frames.flatMap stored) = frames ↔ separatorLines frames = 0 := by
  constructor
  · intro same
    have lengths := length_records_flatMap_stored frames
    rw [same] at lengths
    omega
  · intro none
    exact records_flatMap_stored_of_noSeparator none

end RecordFile

end TrafficRelay
