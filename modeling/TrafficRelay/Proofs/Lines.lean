import TrafficRelay.Bytes

/-!
# Lines of a byte string

Every byte of a byte string is in one of its lines, and every line but the last
ends in a newline.  So a newline is where the lines of a concatenation can be
told apart, and whatever lines are left after some have been read are again the
lines of the bytes that are left.
-/

namespace TrafficRelay

namespace Bytes

@[simp] theorem consLine_newline (lines : List Bytes) :
    consLine newline lines = [newline] :: lines := by
  simp [consLine]

theorem consLine_ne_nil (byte : UInt8) (lines : List Bytes) :
    consLine byte lines ≠ [] := by
  unfold consLine
  split
  · simp
  · cases lines <;> simp

theorem consLine_append (byte : UInt8) {first : List Bytes} (second : List Bytes)
    (nonempty : first ≠ []) :
    consLine byte (first ++ second) = consLine byte first ++ second := by
  cases first with
  | nil => exact (nonempty rfl).elim
  | cons line others =>
      by_cases ends : byte = newline <;> simp [consLine, ends]

@[simp] theorem consLine_flatten (byte : UInt8) (lines : List Bytes) :
    (consLine byte lines).flatten = byte :: lines.flatten := by
  by_cases ends : byte = newline
  · simp [consLine, ends]
  · cases lines <;> simp [consLine, ends]

theorem lines_append_newline_ne_nil (bytes : Bytes) :
    lines (bytes ++ [newline]) ≠ [] := by
  cases bytes with
  | nil => simp
  | cons byte bytes =>
      rw [List.cons_append, lines_cons]
      exact consLine_ne_nil byte _

@[simp] theorem lines_flatten (bytes : Bytes) : (lines bytes).flatten = bytes := by
  induction bytes with
  | nil => rfl
  | cons byte bytes induction => rw [lines_cons, consLine_flatten, induction]

/-- A newline ends the lines before it. -/
theorem lines_append_newline (first second : Bytes) :
    lines (first ++ newline :: second) =
      lines (first ++ [newline]) ++ lines second := by
  induction first with
  | nil => simp
  | cons byte first induction =>
      rw [List.cons_append, lines_cons, induction,
        consLine_append byte _ (lines_append_newline_ne_nil first),
        List.cons_append, lines_cons]

/-- Bytes without a newline make one line with the newline that follows. -/
theorem lines_of_newline_not_mem {bytes : Bytes} (absent : newline ∉ bytes) :
    lines (bytes ++ [newline]) = [bytes ++ [newline]] := by
  induction bytes with
  | nil => simp
  | cons byte bytes induction =>
      have different : byte ≠ newline := fun same => absent (by simp [same])
      have tail := induction fun member => absent (List.mem_cons_of_mem byte member)
      rw [List.cons_append, lines_cons, tail]
      simp [consLine, different]

theorem mem_lines_append_newline {bytes line : Bytes}
    (member : line ∈ lines (bytes ++ [newline])) :
    ∃ content, newline ∉ content ∧ line = content ++ [newline] := by
  induction bytes generalizing line with
  | nil =>
      obtain rfl : line = [newline] := by simpa using member
      exact ⟨[], by simp, rfl⟩
  | cons byte bytes induction =>
      rw [List.cons_append, lines_cons] at member
      by_cases ends : byte = newline
      · subst byte
        rw [consLine_newline] at member
        rcases List.mem_cons.mp member with rfl | later
        · exact ⟨[], by simp, rfl⟩
        · exact induction later
      · cases found : lines (bytes ++ [newline]) with
        | nil => exact (lines_append_newline_ne_nil bytes found).elim
        | cons first others =>
            rw [found] at member
            simp only [consLine, ends, if_false] at member
            rcases List.mem_cons.mp member with rfl | later
            · obtain ⟨content, absent, rfl⟩ :=
                induction (found ▸ List.mem_cons_self)
              refine ⟨byte :: content, ?_, rfl⟩
              simp [absent, Ne.symm ends]
            · exact induction (found ▸ List.mem_cons_of_mem first later)

/-- What is left after the first line has been read. -/
theorem lines_tail {bytes line : Bytes} {rest : List Bytes}
    (cut : lines bytes = line :: rest) : lines rest.flatten = rest := by
  induction bytes generalizing line rest with
  | nil => simp at cut
  | cons byte bytes induction =>
      rw [lines_cons] at cut
      by_cases ends : byte = newline
      · subst byte
        rw [consLine_newline] at cut
        obtain ⟨-, rfl⟩ := List.cons.inj cut
        rw [lines_flatten]
      · cases found : lines bytes with
        | nil =>
            rw [found] at cut
            simp only [consLine, ends, if_false] at cut
            obtain ⟨-, rfl⟩ := List.cons.inj cut
            rfl
        | cons first others =>
            rw [found] at cut
            simp only [consLine, ends, if_false] at cut
            obtain ⟨-, rfl⟩ := List.cons.inj cut
            exact induction found

theorem lines_of_suffix {bytes : Bytes} {read rest : List Bytes}
    (cut : lines bytes = read ++ rest) : lines rest.flatten = rest := by
  induction read generalizing bytes with
  | nil =>
      rw [List.nil_append] at cut
      rw [← cut, lines_flatten]
  | cons line read induction =>
      have tail := lines_tail cut
      exact induction tail

/-- Lines that have been read are the lines of what has been read. -/
theorem lines_of_prefix {bytes : Bytes} {read rest : List Bytes}
    (cut : lines bytes = read ++ rest) : lines read.flatten = read := by
  induction bytes generalizing read with
  | nil =>
      obtain ⟨rfl, -⟩ := List.append_eq_nil_iff.mp cut.symm
      rfl
  | cons byte bytes induction =>
      cases read with
      | nil => rfl
      | cons line read =>
          rw [lines_cons] at cut
          by_cases ends : byte = newline
          · subst byte
            rw [consLine_newline] at cut
            obtain ⟨rfl, others⟩ := List.cons.inj cut
            rw [List.flatten_cons, List.singleton_append, lines_cons, induction others,
              consLine_newline]
          · cases found : lines bytes with
            | nil =>
                rw [found] at cut
                simp only [consLine, ends, if_false] at cut
                obtain ⟨rfl, others⟩ := List.cons.inj cut
                obtain ⟨rfl, -⟩ := List.append_eq_nil_iff.mp others.symm
                simp [consLine, ends]
            | cons first others =>
                rw [found] at cut
                simp only [consLine, ends, if_false, List.cons_append] at cut
                obtain ⟨rfl, same⟩ := List.cons.inj cut
                have shorter : lines bytes = (first :: read) ++ rest := by
                  rw [found, same, List.cons_append]
                have tail := induction shorter
                rw [List.flatten_cons] at tail ⊢
                rw [List.cons_append, lines_cons, tail]
                simp [consLine, ends]

/-- Bytes without a newline are one line, unless there are none. -/
theorem lines_eq_of_newline_not_mem {bytes : Bytes} (absent : newline ∉ bytes) :
    lines bytes = if bytes = [] then [] else [bytes] := by
  induction bytes with
  | nil => rfl
  | cons byte bytes induction =>
      have different : byte ≠ newline := fun same => absent (by simp [same])
      have tail := induction fun member => absent (List.mem_cons_of_mem byte member)
      rw [lines_cons, tail]
      cases bytes <;> simp [consLine, different]

/-- Bytes without a newline continue into the first line of what follows. -/
theorem lines_append_of_newline_not_mem {bytes rest first : Bytes}
    {others : List Bytes} (absent : newline ∉ bytes)
    (found : lines rest = first :: others) :
    lines (bytes ++ rest) = (bytes ++ first) :: others := by
  induction bytes with
  | nil => exact found
  | cons byte bytes induction =>
      have different : byte ≠ newline := fun same => absent (by simp [same])
      have tail := induction fun member => absent (List.mem_cons_of_mem byte member)
      rw [List.cons_append, lines_cons, tail]
      simp [consLine, different]

/-- Whatever follows, the lines that have ended stay, and the last one is
continued. -/
theorem exists_lines_append (bytes : Bytes) :
    ∃ front last, newline ∉ last ∧
      (∀ line ∈ front, line.getLast? = some newline) ∧
      ∀ rest, lines (bytes ++ rest) = front ++ lines (last ++ rest) := by
  induction bytes with
  | nil => exact ⟨[], [], by simp, by simp, fun rest => rfl⟩
  | cons byte bytes induction =>
      obtain ⟨front, last, absent, ended, continued⟩ := induction
      by_cases ends : byte = newline
      · subst byte
        refine ⟨[newline] :: front, last, absent, ?_, ?_⟩
        · exact List.forall_mem_cons.mpr ⟨rfl, ended⟩
        · intro rest
          rw [List.cons_append, lines_cons, continued, consLine_newline,
            List.cons_append]
      · cases front with
        | nil =>
            refine ⟨[], byte :: last, ?_, by simp, ?_⟩
            · simp [absent, Ne.symm ends]
            · intro rest
              rw [List.cons_append, lines_cons, continued]
              rfl
        | cons first others =>
            obtain ⟨firstEnded, othersEnded⟩ := List.forall_mem_cons.mp ended
            refine ⟨(byte :: first) :: others, last, absent, ?_, ?_⟩
            · refine List.forall_mem_cons.mpr ⟨?_, othersEnded⟩
              rw [List.getLast?_cons, firstEnded]
              rfl
            · intro rest
              rw [List.cons_append, lines_cons, continued]
              simp [consLine, ends]

/-- A newline at the end completes the last line, or makes one of its own. -/
theorem exists_lines_append_newline (bytes : Bytes) :
    ∃ front last, newline ∉ last ∧
      lines (bytes ++ [newline]) = front ++ [last ++ [newline]] ∧
      lines bytes = front ++ if last = [] then [] else [last] := by
  obtain ⟨front, last, absent, -, continued⟩ := exists_lines_append bytes
  refine ⟨front, last, absent, ?_, ?_⟩
  · rw [continued, lines_of_newline_not_mem absent]
  · have alone := continued []
    rwa [List.append_nil, List.append_nil, lines_eq_of_newline_not_mem absent] at alone

/-- A line that is followed by another one has its newline. -/
theorem ended_of_lines_cons_cons {bytes line next : Bytes} {others : List Bytes}
    (cut : lines bytes = line :: next :: others) : ∃ text, line = text ++ [newline] := by
  obtain ⟨front, last, absent, ended, continued⟩ := exists_lines_append bytes
  have whole := continued []
  rw [List.append_nil, List.append_nil, lines_eq_of_newline_not_mem absent, cut] at whole
  cases front with
  | nil =>
      have lengths := congrArg List.length whole
      split at lengths <;> simp at lengths
  | cons first front =>
      obtain ⟨rfl, -⟩ := List.cons.inj whole
      exact List.getLast?_eq_some_iff.mp (ended line List.mem_cons_self)

theorem length_lines_le (bytes : Bytes) : (lines bytes).length ≤ bytes.length := by
  induction bytes with
  | nil => exact Nat.le_refl 0
  | cons byte bytes induction =>
      rw [lines_cons, List.length_cons]
      unfold consLine
      split
      · simpa using induction
      · split
        · simp
        · rename_i found
          rw [found] at induction
          simp only [List.length_cons] at induction ⊢
          omega

end Bytes

end TrafficRelay
