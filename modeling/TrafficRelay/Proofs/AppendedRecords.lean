import Mathlib.Data.List.Induction
import TrafficRelay.Proofs.FileRoundTrip
import TrafficRelay.Proofs.ReadRecords

/-!
# Appending to a file that has records

An output appends its frames to whatever the file holds and begins no line of its
own.  If the last line of the file is a separator with its newline, or if the
file is empty, then the frames are read back after the records that were there.
If anything else stands at the end, the first frame continues it, and the record
that the reader finds there is neither the last one of before nor the frame.  One
case is left: where a separator lacks only its newline, an empty frame brings it.
-/

namespace TrafficRelay

namespace RecordFile

/-- The last line is a separator without its newline. -/
def EndsInUnendedSeparator (content : Bytes) : Prop :=
  ∃ last, (Bytes.lines content).getLast? = some last ∧
    isSeparatorLine last = true ∧ last.getLast? ≠ some Bytes.newline

/-- Records that have ended stay as they are, and the lines since the last
separator are the beginning of what comes next. -/
theorem exists_recordsAfter_append (front : List Bytes) :
    ∃ ended pending,
      (∀ rest, recordsAfter [] (front ++ rest) = ended ++ recordsAfter pending rest) ∧
      (pending = [] ↔
        ∀ last, front.getLast? = some last → isSeparatorLine last = true) := by
  induction front using List.reverseRecOn with
  | nil => exact ⟨[], [], fun rest => rfl, by simp⟩
  | append_singleton front line induction =>
      obtain ⟨ended, pending, continued, -⟩ := induction
      cases separates : isSeparatorLine line with
      | true =>
          refine ⟨ended ++ [stripLast Bytes.newline pending.reverse.flatten], [],
            ?_, by simp [separates]⟩
          intro rest
          rw [List.append_assoc, List.singleton_append, continued, recordsAfter,
            if_pos separates, List.append_assoc, List.singleton_append]
      | false =>
          refine ⟨ended, line :: pending, ?_, by simp [separates]⟩
          intro rest
          rw [List.append_assoc, List.singleton_append, continued, recordsAfter,
            if_neg (Bool.eq_false_iff.mp separates)]

theorem recordsAfter_eq_nil_iff {read lines : List Bytes} :
    recordsAfter read lines = [] ↔ read = [] ∧ lines = [] := by
  induction lines generalizing read with
  | nil => cases read <;> simp [recordsAfter]
  | cons line lines induction =>
      cases separates : isSeparatorLine line <;>
        simp [recordsAfter, separates, induction]

section

variable {pending : List Bytes} {last frame first : Bytes} {others : List Bytes}

theorem flatten_contentLines (record : Bytes) :
    (contentLines record).flatten = record ++ [Bytes.newline] :=
  Bytes.lines_flatten _

/-- What follows the first line of a frame is a shorter frame, unless the frame is
empty. -/
theorem eq_nil_of_stripLast_others (found : contentLines frame = first :: others)
    (same : stripLast Bytes.newline others.flatten = frame) : frame = [] := by
  obtain ⟨text, -, rfl⟩ :=
    Bytes.mem_lines_append_newline (found ▸ List.mem_cons_self)
  have whole := flatten_contentLines frame
  rw [found, List.flatten_cons] at whole
  rcases List.eq_nil_or_concat others.flatten with empty | ⟨front, byte, concat⟩
  · rw [empty] at same
    exact same.symm
  · rw [List.concat_eq_append] at concat
    rw [concat, ← List.append_assoc] at whole
    obtain ⟨longer, ended⟩ := List.append_inj' whole rfl
    obtain rfl := List.head_eq_of_cons_eq ended
    rw [concat, stripLast_append] at same
    subst front
    have lengths := congrArg List.length longer
    simp only [List.length_append, List.length_singleton] at lengths
    omega

/-- The first frame after other lines is read back after what they hold exactly if
there are no such lines, or if they lack a newline only and the frame is empty. -/
theorem recordsAfter_seam_iff (absent : Bytes.newline ∉ last)
    (none : (contentLines frame).countP isSeparatorLine = 0) :
    recordsAfter pending
        (contentLines (last ++ frame) ++ [separator ++ [Bytes.newline]]) =
        recordsAfter pending (Bytes.lines last) ++ [frame] ↔
      pending = [] ∧ last = [] ∨ isSeparatorLine last = true ∧ frame = [] := by
  have some : contentLines frame ≠ [] := Bytes.lines_append_newline_ne_nil frame
  obtain ⟨first, others, found⟩ := List.exists_cons_of_ne_nil some
  have seam : contentLines (last ++ frame) = (last ++ first) :: others := by
    rw [contentLines, List.append_assoc]
    exact Bytes.lines_append_of_newline_not_mem absent found
  rw [found, List.countP_cons, Nat.add_eq_zero_iff] at none
  obtain ⟨noneLater, noneFirst⟩ := none
  have noneFirst : isSeparatorLine first = false := by simpa using noneFirst
  have emptyFrame : frame = [] → first = [Bytes.newline] ∧ others = [] := by
    rintro rfl
    exact List.cons.inj found.symm
  cases separates : isSeparatorLine (last ++ first) with
  | true =>
      rw [seam, List.cons_append, recordsAfter, if_pos separates,
        recordsAfter_of_noSeparator [] noneLater isSeparatorLine_separator,
        List.reverse_nil, List.nil_append]
      constructor
      · intro same
        have cut := congrArg List.getLast? same
        rw [List.getLast?_concat, List.getLast?_cons_cons, List.getLast?_singleton] at cut
        have empty := eq_nil_of_stripLast_others found (Option.some.inj cut)
        obtain ⟨rfl, rfl⟩ := emptyFrame empty
        rw [isSeparatorLine_append_newline_eq absent] at separates
        exact Or.inr ⟨separates, empty⟩
      · rintro (⟨rfl, rfl⟩ | ⟨ended, rfl⟩)
        · rw [List.nil_append, noneFirst] at separates
          cases separates
        · obtain ⟨rfl, rfl⟩ := emptyFrame rfl
          have nonempty : last ≠ [] := by
            rintro rfl
            cases ended
          rw [Bytes.lines_eq_of_newline_not_mem absent, if_neg nonempty, recordsAfter,
            if_pos ended]
          rfl
  | false =>
      have noneSeam : ((last ++ first) :: others).countP isSeparatorLine = 0 := by
        rw [List.countP_cons_of_neg (Bool.eq_false_iff.mp separates), noneLater]
      have whole : ((last ++ first) :: others).flatten =
          last ++ frame ++ [Bytes.newline] := by
        rw [← seam, flatten_contentLines]
      rw [seam, recordsAfter_of_noSeparator pending noneSeam isSeparatorLine_separator,
        List.flatten_append, whole, ← List.append_assoc, stripLast_append]
      constructor
      · intro same
        have lengths := congrArg List.length same
        simp only [List.length_append, List.length_singleton] at lengths
        have nothing : recordsAfter pending (Bytes.lines last) = [] :=
          List.eq_nil_of_length_eq_zero (by omega)
        obtain ⟨noPending, noLines⟩ := recordsAfter_eq_nil_iff.mp nothing
        have noLast := Bytes.lines_flatten last
        rw [noLines] at noLast
        exact Or.inl ⟨noPending, noLast.symm⟩
      · rintro (⟨rfl, rfl⟩ | ⟨ended, empty⟩)
        · rfl
        · obtain ⟨rfl, rfl⟩ := emptyFrame empty
          rw [isSeparatorLine_append_newline_eq absent, ended] at separates
          cases separates

end

/-- Where a file is continued: after lines that have ended, of which the pending
ones have no separator behind them yet, and after the bytes of a line that has
not. -/
theorem exists_records_append (content : Bytes) :
    ∃ ended pending last, Bytes.newline ∉ last ∧
      (∀ rest, records (content ++ rest) =
        ended ++ recordsAfter pending (Bytes.lines (last ++ rest))) ∧
      (EndsInSeparator content ↔ pending = [] ∧ last = []) ∧
      (EndsInUnendedSeparator content ↔ isSeparatorLine last = true) := by
  obtain ⟨front, last, absent, endedLines, continued⟩ :=
    Bytes.exists_lines_append content
  obtain ⟨ended, pending, read, settled⟩ := exists_recordsAfter_append front
  have unended : last.getLast? ≠ some Bytes.newline := fun found =>
    absent (List.mem_of_getLast? found)
  have whole : Bytes.lines content = front ++ if last = [] then [] else [last] := by
    have alone := continued []
    rwa [List.append_nil, List.append_nil,
      Bytes.lines_eq_of_newline_not_mem absent] at alone
  refine ⟨ended, pending, last, absent, ?_, ?_, ?_⟩
  · intro rest
    rw [records, continued, read]
  · rw [EndsInSeparator, whole]
    by_cases empty : last = []
    · rw [if_pos empty, List.append_nil, settled, and_iff_left empty]
      refine forall_congr' fun line => imp_congr_right fun found => ?_
      exact and_iff_left (endedLines line (List.mem_of_getLast? found))
    · rw [if_neg empty, List.getLast?_concat]
      constructor
      · intro framed
        exact (unended (framed last rfl).2).elim
      · rintro ⟨-, none⟩
        exact (empty none).elim
  · rw [EndsInUnendedSeparator, whole]
    by_cases empty : last = []
    · rw [if_pos empty, List.append_nil, empty]
      constructor
      · rintro ⟨line, found, -, lacks⟩
        exact (lacks (endedLines line (List.mem_of_getLast? found))).elim
      · intro separates
        cases separates
    · rw [if_neg empty, List.getLast?_concat]
      constructor
      · rintro ⟨line, found, separates, -⟩
        exact Option.some.inj found ▸ separates
      · intro separates
        exact ⟨last, rfl, separates, unended⟩

/-- Frames that are stored after any content are read back after its records, as
they are, exactly if the content leaves no line for the first one to continue. -/
theorem records_append_flatMap_stored_iff (content : Bytes) {frames : List Bytes}
    (none : separatorLines frames = 0) :
    records (content ++ frames.flatMap stored) = records content ++ frames ↔
      frames = [] ∨ EndsInSeparator content ∨
        EndsInUnendedSeparator content ∧ frames.head? = some [] := by
  cases frames with
  | nil => simp
  | cons frame frames =>
      obtain ⟨ended, pending, last, absent, continued, framed, unended⟩ :=
        exists_records_append content
      rw [separatorLines_cons] at none
      obtain ⟨noneHere, noneLater⟩ := Nat.add_eq_zero_iff.mp none
      have appended : records (content ++ (frame :: frames).flatMap stored) =
          ended ++ (recordsAfter pending
            (contentLines (last ++ frame) ++ [separator ++ [Bytes.newline]]) ++
              frames) := by
        have shape : last ++ (frame :: frames).flatMap stored =
            stored (last ++ frame) ++ frames.flatMap stored := by
          simp [stored]
        rw [continued, shape, lines_stored_append,
          recordsAfter_append_separator _ _ isSeparatorLine_separator, ← records,
          records_flatMap_stored_of_noSeparator noneLater]
      have alone := continued []
      rw [List.append_nil, List.append_nil] at alone
      have split : recordsAfter pending (Bytes.lines last) ++ frame :: frames =
          recordsAfter pending (Bytes.lines last) ++ [frame] ++ frames := by
        rw [List.append_assoc, List.singleton_append]
      rw [appended, alone, List.append_assoc, List.append_cancel_left_eq, split,
        List.append_cancel_right_eq, recordsAfter_seam_iff absent noneHere, framed,
        unended]
      simp

end RecordFile

namespace OpenFiles

/-- What an input reads from a file before and after an output has appended frames
to it. -/
theorem reads_appended {tree opened : FileTree} {path : String}
    {location : Location} {content : Bytes}
    (appending : tree.openForAppending path = .ok (location, opened))
    (present : tree.contentAt location = .ok content) (frames : List Bytes) :
    ∃ written,
      Reads 0 ⟨tree, [FileCursor.start location], []⟩ (RecordFile.records content) ∧
      Writes 0 ⟨opened, [], [location]⟩ frames ⟨written, [], [location]⟩ ∧
      written.openExisting path = .ok location ∧
      Reads 0 ⟨written, [FileCursor.start location], []⟩
        (RecordFile.records (content ++ frames.flatMap RecordFile.stored)) := by
  obtain ⟨located, holds⟩ := FileTree.openForAppending_eq_ok appending
  rw [FileTree.contentOrEmpty_of_contentAt present] at holds
  have onlyOutput : [location][0]? = some location := rfl
  have onlyInput : [FileCursor.start location][0]? = some ⟨location, 0⟩ := rfl
  obtain ⟨written, writes, holdsAll⟩ := writes_of_holdsFile holds [] onlyOutput frames
  exact ⟨written, reads_of_contentAt present onlyInput, writes,
    holdsAll.openExisting located, reads_of_contentAt holdsAll.content onlyInput⟩

/-- An output appends frames without separators to a file.  They are read back after
the records of before, all as they are, exactly if the file was empty or ended in a
separator line, or in a separator that an empty first frame completes. -/
theorem reads_appended_frames {tree opened : FileTree} {path : String}
    {location : Location} {content : Bytes}
    (appending : tree.openForAppending path = .ok (location, opened))
    (present : tree.contentAt location = .ok content)
    {frames : List Bytes} (none : RecordFile.separatorLines frames = 0) :
    ∃ written before after,
      Reads 0 ⟨tree, [FileCursor.start location], []⟩ before ∧
      Writes 0 ⟨opened, [], [location]⟩ frames ⟨written, [], [location]⟩ ∧
      written.openExisting path = .ok location ∧
      Reads 0 ⟨written, [FileCursor.start location], []⟩ after ∧
      (after = before ++ frames ↔
        frames = [] ∨ RecordFile.EndsInSeparator content ∨
          RecordFile.EndsInUnendedSeparator content ∧ frames.head? = some []) := by
  obtain ⟨written, before, writes, opens, after⟩ :=
    reads_appended appending present frames
  exact ⟨written, _, _, before, writes, opens, after,
    RecordFile.records_append_flatMap_stored_iff content none⟩

/-- The separator of the first record lacks its newline, which the empty frame
brings. -/
theorem reads_appended_frames_unended :
    let tree := FileTree.empty.set ["work", "f"]
      (.file (49 :: 10 :: RecordFile.separator))
    ∃ written before,
      Reads 0 ⟨tree, [FileCursor.start ["work", "f"]], []⟩ before ∧
      Writes 0 ⟨tree, [], [["work", "f"]]⟩ [[], [50]]
        ⟨written, [], [["work", "f"]]⟩ ∧
      Reads 0 ⟨written, [FileCursor.start ["work", "f"]], []⟩
        (before ++ [[], [50]]) := by
  intro tree
  have opened : tree.openForAppending "f" = .ok (["work", "f"], tree) := by rfl
  have present : tree.contentAt ["work", "f"] =
      .ok (49 :: 10 :: RecordFile.separator) := rfl
  have unended : RecordFile.EndsInUnendedSeparator (49 :: 10 :: RecordFile.separator) :=
    ⟨RecordFile.separator, by decide, by decide, by decide⟩
  have none : RecordFile.separatorLines [[], [50]] = 0 := by decide
  obtain ⟨written, before, after, earlier, writes, -, reads, same⟩ :=
    reads_appended_frames opened present none
  refine ⟨written, before, earlier, writes, ?_⟩
  rw [← same.mpr (Or.inr (Or.inr ⟨unended, rfl⟩))]
  exact reads

/-- A frame that is appended to a record without a separator is read back as one
record with it. -/
theorem reads_appended_frame_joined :
    let tree := FileTree.empty.set ["work", "f"] (.file [49])
    RecordFile.separatorLines [[50]] = 0 ∧
      tree.openForAppending "f" = .ok (["work", "f"], tree) ∧
      Reads 0 ⟨tree, [FileCursor.start ["work", "f"]], []⟩ [[49]] ∧
      ∃ written,
        Writes 0 ⟨tree, [], [["work", "f"]]⟩ [[50]]
          ⟨written, [], [["work", "f"]]⟩ ∧
        Reads 0 ⟨written, [FileCursor.start ["work", "f"]], []⟩ [[49, 50]] ∧
        [[49, 50]] ≠ [[49]] ++ [([50] : Bytes)] := by
  intro tree
  have opened : tree.openForAppending "f" = .ok (["work", "f"], tree) := by rfl
  have present : tree.contentAt ["work", "f"] = .ok [49] := rfl
  obtain ⟨written, before, writes, -, after⟩ := reads_appended opened present [[50]]
  exact ⟨by decide, opened, before, written, writes, after, by decide⟩

end OpenFiles

end TrafficRelay
