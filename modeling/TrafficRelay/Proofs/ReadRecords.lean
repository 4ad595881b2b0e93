import TrafficRelay.Proofs.StoredRecords

/-!
# Records that were read

A reader cuts a file at its separators, so no record that it finds has one,
also not once a newline follows it: a record whose last line lacks its newline
was the last in the file, and that line was no separator either.  Records that
were read can therefore be stored again without any being split.
-/

namespace TrafficRelay

namespace RecordFile

theorem isSeparatorLine_append_newline_eq {last : Bytes}
    (absent : Bytes.newline ∉ last) :
    isSeparatorLine (last ++ [Bytes.newline]) = isSeparatorLine last := by
  simp only [isSeparatorLine, stripLast_append, stripLast_of_not_mem absent]

/-- A newline at the end makes no line a separator that was none. -/
theorem countP_contentLines (record : Bytes) :
    (contentLines record).countP isSeparatorLine =
      (Bytes.lines record).countP isSeparatorLine := by
  obtain ⟨front, last, absent, ended, unended⟩ :=
    Bytes.exists_lines_append_newline record
  rw [contentLines, ended, unended, List.countP_append, List.countP_append]
  by_cases empty : last = []
  · subst last
    have noSeparator : isSeparatorLine [Bytes.newline] = false := by decide
    simp [noSeparator]
  · rw [if_neg empty, List.countP_singleton, List.countP_singleton,
      isSeparatorLine_append_newline_eq absent]

theorem stripLast_eq_or (byte : UInt8) (bytes : Bytes) :
    stripLast byte bytes = bytes ∨ bytes = stripLast byte bytes ++ [byte] := by
  unfold stripLast
  split
  · rename_i last
    obtain ⟨front, rfl⟩ := List.getLast?_eq_some_iff.mp last
    exact Or.inr (by rw [List.dropLast_concat])
  · exact Or.inl rfl

/-- Nor does it matter for the separators of a record whether its last newline
belongs to it. -/
theorem countP_contentLines_stripLast (bytes : Bytes) :
    (contentLines (stripLast Bytes.newline bytes)).countP isSeparatorLine =
      (Bytes.lines bytes).countP isSeparatorLine := by
  rcases stripLast_eq_or Bytes.newline bytes with same | ended
  · rw [same, countP_contentLines]
  · rw [contentLines, ← ended]

theorem countP_eq_zero_of_mem_recordsAfter {read lines : List Bytes} {record : Bytes}
    (whole : Bytes.lines (read.reverse ++ lines).flatten = read.reverse ++ lines)
    (noneRead : read.countP isSeparatorLine = 0)
    (member : record ∈ recordsAfter read lines) :
    (contentLines record).countP isSeparatorLine = 0 := by
  induction lines generalizing read with
  | nil =>
      rw [List.append_nil] at whole
      rw [recordsAfter] at member
      split at member
      · cases member
      · obtain rfl := List.mem_singleton.mp member
        rw [countP_contentLines, whole, List.countP_reverse, noneRead]
  | cons line lines induction =>
      rw [recordsAfter] at member
      cases separates : isSeparatorLine line with
      | true =>
          rw [if_pos separates] at member
          rcases List.mem_cons.mp member with rfl | later
          · rw [countP_contentLines_stripLast, Bytes.lines_of_prefix whole,
              List.countP_reverse, noneRead]
          · have cut : Bytes.lines (read.reverse ++ line :: lines).flatten =
                (read.reverse ++ [line]) ++ lines := by
              rw [whole, List.append_assoc, List.singleton_append]
            have left := Bytes.lines_of_suffix cut
            exact @induction [] left rfl later
      | false =>
          rw [if_neg (Bool.eq_false_iff.mp separates)] at member
          apply induction _ _ member
          · rw [List.reverse_cons, List.append_assoc, List.singleton_append]
            exact whole
          · rw [List.countP_cons_of_neg (Bool.eq_false_iff.mp separates), noneRead]

/-- No record of a file has a separator, whatever the file holds. -/
theorem countP_eq_zero_of_mem_records {content record : Bytes}
    (member : record ∈ records content) :
    (contentLines record).countP isSeparatorLine = 0 := by
  have whole : Bytes.lines (List.reverse [] ++ Bytes.lines content).flatten =
      List.reverse [] ++ Bytes.lines content := by
    rw [List.reverse_nil, List.nil_append, Bytes.lines_flatten]
  exact countP_eq_zero_of_mem_recordsAfter whole rfl member

theorem separatorLines_of_records {content : Bytes} {frames : List Bytes}
    (found : ∀ frame ∈ frames, frame ∈ records content) :
    separatorLines frames = 0 := by
  induction frames with
  | nil => rfl
  | cons frame frames induction =>
      have first := countP_eq_zero_of_mem_records (found frame List.mem_cons_self)
      have others := induction fun frame member =>
        found frame (List.mem_cons_of_mem _ member)
      rw [separatorLines_cons, first, others]

theorem length_recordsAfter_le (read lines : List Bytes) :
    (recordsAfter read lines).length ≤ lines.length + if read.isEmpty then 0 else 1 := by
  induction lines generalizing read with
  | nil =>
      rw [recordsAfter]
      split <;> simp
  | cons line lines induction =>
      rw [recordsAfter]
      split
      · have others := induction []
        simp only [List.length_cons, List.isEmpty_nil, if_true] at others ⊢
        omega
      · have others := induction (line :: read)
        simp only [List.length_cons, List.isEmpty_cons, Bool.false_eq_true,
          if_false] at others ⊢
        omega

/-- Every record takes up at least one byte. -/
theorem length_records_le (content : Bytes) :
    (records content).length ≤ content.length := by
  have lineCount := length_recordsAfter_le [] (Bytes.lines content)
  have byteCount := Bytes.length_lines_le content
  simp only [List.isEmpty_nil, if_true] at lineCount
  unfold records
  omega

/-- The last line, if there is any, is a separator with its newline. -/
def EndsInSeparator (content : Bytes) : Prop :=
  ∀ last, (Bytes.lines content).getLast? = some last →
    isSeparatorLine last = true ∧ last.getLast? = some Bytes.newline

theorem endsInSeparator_nil : EndsInSeparator [] := by
  intro last found
  cases found

theorem endsInSeparator_append_stored (content : Bytes) (record : Bytes) :
    EndsInSeparator (content ++ stored record) := by
  intro last found
  have shape : content ++ stored record =
      (content ++ record) ++ Bytes.newline :: (separator ++ [Bytes.newline]) := by
    rw [stored, List.append_assoc]
  rw [shape, Bytes.lines_append_newline,
    Bytes.lines_of_newline_not_mem newline_not_mem_separator,
    List.getLast?_concat] at found
  obtain rfl := Option.some.inj found
  exact ⟨isSeparatorLine_separator, List.getLast?_concat⟩

/-- What follows a separator is read on its own. -/
theorem EndsInSeparator.records_append {content : Bytes}
    (framed : EndsInSeparator content) (rest : Bytes) :
    records (content ++ rest) = records content ++ records rest := by
  cases last? : (Bytes.lines content).getLast? with
  | none =>
      have empty : content = [] := by
        rw [← Bytes.lines_flatten content, List.getLast?_eq_none_iff.mp last?,
          List.flatten_nil]
      subst content
      rfl
  | some last =>
      obtain ⟨separates, ended⟩ := framed last last?
      obtain ⟨front, cut⟩ := List.getLast?_eq_some_iff.mp last?
      obtain ⟨text, rfl⟩ := List.getLast?_eq_some_iff.mp ended
      have shape : content = (front.flatten ++ text) ++ [Bytes.newline] := by
        rw [← Bytes.lines_flatten content, cut]
        simp
      have following : Bytes.lines (content ++ rest) =
          front ++ (text ++ [Bytes.newline]) :: Bytes.lines rest := by
        have kept : content ++ rest =
            (front.flatten ++ text) ++ Bytes.newline :: rest := by
          rw [shape, List.append_assoc, List.singleton_append]
        rw [kept, Bytes.lines_append_newline, ← shape, cut, List.append_assoc,
          List.singleton_append]
      rw [records, records, records, following, cut,
        recordsAfter_append_separator _ _ separates]

/-- Records that were read from one file and stored at the end of another are
read back as they are, after the records that were there. -/
theorem records_append_stored {content earlier : Bytes} {frames : List Bytes}
    (framed : EndsInSeparator earlier)
    (found : ∀ frame ∈ frames, frame ∈ records content) :
    records (earlier ++ frames.flatMap stored) = records earlier ++ frames := by
  rw [framed.records_append,
    records_flatMap_stored_of_noSeparator (separatorLines_of_records found)]

end RecordFile

end TrafficRelay
